import Mathlib.Data.List.Basic
import Mathlib.Data.List.Induction
import AccelProfile.Proofs.BusyUnits
import AccelProfile.Proofs.StallStreaks

/-!
# The cause and the class with the largest count

A report names the cause of the most stalled cycles and the class of units with the most contention.
Both are found by one scan over all candidates in the order of the reports, which remembers the best
one so far and gives it up only for a candidate that weighs more. What the scan has found at any
point leads the candidates up to there: it weighs something, none of them weighs more, and those
that weigh as much come behind it. Nothing is remembered exactly as long as nothing weighs anything.

Only one candidate can lead. If its weight grows and no other does, it leads still.
-/

namespace AccelProfile

/-- The scan gives up the best candidate so far for one more that weighs more. -/
theorem heaviest_concat {α : Type} (weight : α → Nat) (candidates : List α) (next : α) :
    heaviest weight (candidates ++ [next]) =
      if (heaviest weight candidates).elim 0 weight < weight next then some next
      else heaviest weight candidates := by
  rw [heaviest, List.foldl_append]
  rfl

section Scan

variable {α : Type} [DecidableEq α] {weight : α → Nat} {candidates : List α} {leader : α}

/-- A candidate leads if it weighs something, and every other one weighs less or weighs as much and
does not come before it. -/
structure Leads (weight : α → Nat) (candidates : List α) (leader : α) : Prop where
  listed : leader ∈ candidates
  positive : 0 < weight leader
  ahead : ∀ other ∈ candidates, weight other < weight leader ∨
    weight other = weight leader ∧ candidates.idxOf leader ≤ candidates.idxOf other

namespace Leads

/-- The leader stays in front of one more candidate that does not weigh more. -/
theorem concat_lighter (leads : Leads weight candidates leader) {next : α}
    (lighter : weight next ≤ weight leader) : Leads weight (candidates ++ [next]) leader where
  listed := List.mem_append_left [next] leads.listed
  positive := leads.positive
  ahead other member := by
    rw [List.idxOf_append_of_mem leads.listed]
    by_cases known : other ∈ candidates
    · rw [List.idxOf_append_of_mem known]
      exact leads.ahead other known
    · have isNext : other = next := by simpa [known] using member
      rw [List.idxOf_append_of_notMem known, isNext]
      have place := List.idxOf_lt_length_of_mem leads.listed
      omega

/-- One more candidate takes the lead if it weighs more than all in front of it. -/
theorem concat_heavier {next : α} (positive : 0 < weight next)
    (heavier : ∀ other ∈ candidates, weight other < weight next) :
    Leads weight (candidates ++ [next]) next where
  listed := List.mem_append_right candidates (List.mem_singleton_self next)
  positive := positive
  ahead other member := by
    rcases List.mem_append.1 member with known | new
    · exact Or.inl (heavier other known)
    · rw [List.mem_singleton.1 new]
      exact Or.inr ⟨rfl, Nat.le_refl _⟩

/-- Two candidates cannot both lead. -/
theorem unique {rival : α} (leads : Leads weight candidates leader)
    (rivals : Leads weight candidates rival) : leader = rival := by
  have behind := leads.ahead rival rivals.listed
  have before := rivals.ahead leader leads.listed
  have place : candidates.idxOf leader = candidates.idxOf rival := by omega
  exact (List.idxOf_inj leads.listed).1 place

/-- The leader stays in front if its weight does not shrink and no other weight grows. -/
theorem raised (leads : Leads weight candidates leader) {raised : α → Nat}
    (grows : weight leader ≤ raised leader)
    (others : ∀ other, other ≠ leader → raised other ≤ weight other) :
    Leads raised candidates leader where
  listed := leads.listed
  positive := Nat.lt_of_lt_of_le leads.positive grows
  ahead other member := by
    by_cases same : other = leader
    · rw [same]
      exact Or.inr ⟨rfl, Nat.le_refl _⟩
    · have lower := others other same
      have behind := leads.ahead other member
      omega

end Leads

/-- The scan finds the leader, unless nothing weighs anything.

Induct over the candidates from the front, as the scan goes. One more candidate takes the lead
exactly where it weighs more than the leader so far, and is the first to lead exactly where it is
the first that weighs anything. -/
theorem heaviest_leads (weight : α → Nat) (candidates : List α) :
    (heaviest weight candidates = none ∧ ∀ candidate ∈ candidates, weight candidate = 0) ∨
      ∃ leader, heaviest weight candidates = some leader ∧ Leads weight candidates leader := by
  induction candidates using List.reverseRecOn with
  | nil => exact Or.inl ⟨rfl, by simp⟩
  | append_singleton candidates next ih =>
    rw [heaviest_concat]
    rcases ih with ⟨found, zero⟩ | ⟨leader, found, leads⟩
    · rw [found]
      by_cases weighs : 0 < weight next
      · have heavier : ∀ other ∈ candidates, weight other < weight next := by
          intro other member
          rw [zero other member]
          exact weighs
        exact Or.inr ⟨next, if_pos weighs, .concat_heavier weighs heavier⟩
      · have light : weight next = 0 := Nat.eq_zero_of_not_pos weighs
        refine Or.inl ⟨if_neg weighs, fun candidate member => ?_⟩
        rcases List.mem_append.1 member with known | new
        · exact zero candidate known
        · rwa [List.mem_singleton.1 new]
    · rw [found]
      by_cases heavier : weight leader < weight next
      · have heaviest : ∀ other ∈ candidates, weight other < weight next := by
          intro other member
          have behind := leads.ahead other member
          omega
        exact Or.inr ⟨next, if_pos heavier, .concat_heavier (Nat.zero_lt_of_lt heavier) heaviest⟩
      · exact Or.inr ⟨leader, if_neg heavier, leads.concat_lighter (Nat.le_of_not_lt heavier)⟩

theorem heaviest_eq_some_iff_leads : heaviest weight candidates = some leader ↔
    Leads weight candidates leader := by
  rcases heaviest_leads weight candidates with ⟨found, zero⟩ | ⟨first, found, leads⟩
  · simp only [found, reduceCtorEq, false_iff]
    exact fun leads => Nat.ne_of_gt leads.positive (zero leader leads.listed)
  · simp only [found, Option.some.injEq]
    constructor
    · rintro rfl
      exact leads
    · exact leads.unique

/-- One more on the weight of what the scan finds leaves the scan to find it again. -/
theorem heaviest_counted (found : heaviest weight candidates = some leader) {counted : α → Nat}
    (counts : ∀ item, counted item = weight item + if item = leader then 1 else 0) :
    heaviest counted candidates = some leader := by
  rw [heaviest_eq_some_iff_leads] at found ⊢
  apply found.raised
  · rw [counts]
    exact Nat.le_add_right _ _
  · intro other different
    rw [counts, if_neg different]
    exact Nat.le_refl _

/-- Where all items are candidates, the scan finds nothing exactly if nothing weighs anything. -/
theorem heaviest_eq_none_iff (complete : ∀ item, item ∈ candidates) :
    heaviest weight candidates = none ↔ ∀ item, weight item = 0 := by
  rcases heaviest_leads weight candidates with ⟨found, zero⟩ | ⟨leader, found, leads⟩
  · simp only [found, true_iff]
    exact fun item => zero item (complete item)
  · simp only [found, reduceCtorEq, false_iff]
    exact fun zero => Nat.ne_of_gt leads.positive (zero leader)

/-- Where all items are candidates, the scan finds the first of all items with the largest
weight. -/
theorem heaviest_eq_some_iff (complete : ∀ item, item ∈ candidates) :
    heaviest weight candidates = some leader ↔
      0 < weight leader ∧ ∀ other, weight other < weight leader ∨
        weight other = weight leader ∧ candidates.idxOf leader ≤ candidates.idxOf other := by
  rw [heaviest_eq_some_iff_leads]
  constructor
  · intro leads
    exact ⟨leads.positive, fun other => leads.ahead other (complete other)⟩
  · rintro ⟨positive, ahead⟩
    exact ⟨complete leader, positive, fun other _ => ahead other⟩

end Scan

theorem StallCause.mem_all (cause : StallCause) : cause ∈ all := by
  cases cause <;> decide

theorem FuClass.mem_all (fu : FuClass) : fu ∈ all := by
  cases fu <;> decide

namespace FuUsage

/-- The class of which a call records contention. -/
def Call.contended? : Call → Option FuClass
  | .contention fu => some fu
  | .hold .. | .instances .. => none

/-- The classes of which contention was recorded, in the order of the recording and with their
repeats. -/
def contentions (calls : List Call) : List FuClass :=
  calls.filterMap Call.contended?

/-- Contention counts for its class and for no other. -/
theorem contentionStalls_recordContention (usage : FuUsage) (fu second : FuClass) :
    ((usage.recordContention fu).get second).contentionStalls =
      (usage.get second).contentionStalls + if second = fu then 1 else 0 := by
  have counters := usage.get_modify fu second fun counters =>
    { counters with contentionStalls := counters.contentionStalls + 1 }
  refine (congrArg FuCounters.contentionStalls counters).trans ?_
  by_cases same : second = fu <;> simp [same]

/-- A call counts as contention of the class of which it records some, if any. -/
theorem contentionStalls_receive (usage : FuUsage) (call : Call) (fu : FuClass) :
    ((usage.receive call).get fu).contentionStalls =
      (usage.get fu).contentionStalls + call.contended?.toList.count fu := by
  cases call with
  | hold second held =>
    refine get_modify_of_kept FuCounters.contentionStalls usage second fu
      (·.hold held.start held.stop) fun counters => ?_
    rw [FuCounters.hold]
    split <;> rfl
  | contention second =>
    refine (usage.contentionStalls_recordContention second fu).trans ?_
    by_cases same : fu = second
    · simp [Call.contended?, same]
    · simp [Call.contended?, same, Ne.symm same]
  | instances second count =>
    exact get_modify_of_kept FuCounters.contentionStalls usage second fu
      ({ · with instances := count }) fun _ => rfl

/-- Each class has as much contention as was recorded of it. -/
theorem contentionStalls_after (calls : List Call) (fu : FuClass) :
    ((after calls).get fu).contentionStalls = (contentions calls).count fu := by
  induction calls using List.reverseRecOn with
  | nil => simp [after, get, empty, FuCounters.empty, contentions]
  | append_singleton calls call ih =>
    rw [after_concat, contentionStalls_receive, ih, contentions, contentions,
      List.filterMap_append, List.count_append]
    cases call <;> rfl

theorem count_contentions_eq_zero_iff (calls : List Call) (fu : FuClass) :
    (contentions calls).count fu = 0 ↔ .contention fu ∉ calls := by
  rw [List.count_eq_zero, contentions, List.mem_filterMap, not_iff_not]
  constructor
  · rintro ⟨call, recorded, contended⟩
    cases call with
    | contention second => exact Option.some.inj contended ▸ recorded
    | hold => cases contended
    | instances => cases contended
  · exact fun recorded => ⟨.contention fu, recorded, rfl⟩

end FuUsage

/-- After any cycles there is a dominant cause of stalls unless nothing was stalled, and it is the
cause with the most stalled cycles, of several such causes the first in the order of the reports.
The same holds, after any requests, for the most contended class of units and the contention that
was recorded. One more stall of the dominant cause, or contention of the most contended class,
leaves the answer as it is. -/
theorem first_largest_count_leads (cycles : List StallBreakdown.Call)
    (requests : List FuUsage.Call) :
    let stalls := StallBreakdown.after cycles
    let usage := FuUsage.after requests
    let contention := fun fu => (usage.get fu).contentionStalls
    (∀ cause, stalls.count cause = cycles.count (.stall cause)) ∧
    (stalls.dominantCause = none ↔ ∀ cause, .stall cause ∉ cycles) ∧
    (∀ cause, stalls.dominantCause = some cause ↔
      0 < stalls.count cause ∧ ∀ other, stalls.count other < stalls.count cause ∨
        stalls.count other = stalls.count cause ∧
          StallCause.all.idxOf cause ≤ StallCause.all.idxOf other) ∧
    (∀ cause, stalls.dominantCause = some cause →
      (stalls.record cause).dominantCause = some cause) ∧
    (∀ fu, contention fu = (FuUsage.contentions requests).count fu) ∧
    (usage.mostContended = none ↔ ∀ fu, .contention fu ∉ requests) ∧
    (∀ fu, usage.mostContended = some fu ↔
      0 < contention fu ∧ ∀ second, contention second < contention fu ∨
        contention second = contention fu ∧ FuClass.all.idxOf fu ≤ FuClass.all.idxOf second) ∧
    ∀ fu, usage.mostContended = some fu →
      (usage.recordContention fu).mostContended = some fu := by
  intro stalls usage contention
  have stalled : ∀ cause, stalls.count cause = cycles.count (.stall cause) :=
    (StallBreakdown.tells_after cycles).causes
  have contended : ∀ fu, contention fu = (FuUsage.contentions requests).count fu :=
    FuUsage.contentionStalls_after requests
  refine ⟨stalled, ?_, fun cause => heaviest_eq_some_iff StallCause.mem_all, ?_, contended, ?_,
    fun fu => heaviest_eq_some_iff FuClass.mem_all, ?_⟩
  · rw [StallBreakdown.dominantCause, heaviest_eq_none_iff StallCause.mem_all]
    simp only [stalled, List.count_eq_zero]
  · intro cause dominant
    exact heaviest_counted dominant (stalls.count_record cause)
  · rw [FuUsage.mostContended, heaviest_eq_none_iff FuClass.mem_all]
    refine forall_congr' fun fu => ?_
    rw [← FuUsage.count_contentions_eq_zero_iff]
    exact Eq.congr_left (contended fu)
  · intro fu most
    exact heaviest_counted most (usage.contentionStalls_recordContention fu)

/-- Of two causes that stalled once each, and of two classes with one contention each, the one that
was recorded last comes first in the order of the reports. It leads, also after one more. -/
theorem tied_counts_led_by_first :
    let stalls := StallBreakdown.after [.stall .resourceLimit, .progress, .stall .rawHazard]
    let usage := FuUsage.after [.contention .other, .instances .counter 4, .contention .gep]
    stalls.dominantCause = some .rawHazard ∧
    (stalls.record .rawHazard).dominantCause = some .rawHazard ∧
    usage.mostContended = some .gep ∧
    (usage.recordContention .gep).mostContended = some .gep := by
  intro stalls usage
  have dominant : stalls.dominantCause = some .rawHazard := by decide
  have most : usage.mostContended = some .gep := by decide
  obtain ⟨-, -, -, staysDominant, -, -, -, staysMost⟩ := first_largest_count_leads
    [.stall .resourceLimit, .progress, .stall .rawHazard]
    [.contention .other, .instances .counter 4, .contention .gep]
  exact ⟨dominant, staysDominant .rawHazard dominant, most, staysMost .gep most⟩

end AccelProfile
