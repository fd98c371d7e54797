import Mathlib.Data.List.Perm.Basic
import AccelProfile.Proofs.HistogramCounts
import AccelProfile.Proofs.SaturatedSums

/-!
# Ready instructions of the sampled cycles

Of the sampled cycles a run keeps how often each number of ready instructions was seen. The mean is
taken from there: each number times its count, and the counts, are summed up in one word each. The
products stop at the largest word as well, but a product that does not fit makes a sum that does not
fit, so the first of the two sums is that of all samples, as far as a word holds it, in whatever
order the entries are summed up. The counts sum up to the number of samples.
-/

namespace AccelProfile

namespace Histogram

/-- The numbers of some entries, each as often as it is counted. -/
def weightedSum (entries : List (Nat × Nat)) : Nat :=
  (entries.map fun (key, count) => key * count).sum

/-- One more observation adds its number. -/
theorem weightedSum_updateEntries (key : Nat) (entries : List (Nat × Nat)) :
    weightedSum (SortedTable.updateEntries key (fun count => count.getD 0 + 1) entries) =
      weightedSum entries + key := by
  simp only [weightedSum]
  induction entries with
  | nil => simp [SortedTable.updateEntries]
  | cons head tail ih =>
    obtain ⟨first, value⟩ := head
    simp only [SortedTable.updateEntries]
    split
    · simp [Nat.add_comm]
    · split
      · next same =>
        subst same
        simp only [List.map_cons, List.sum_cons, Option.getD_some, Nat.mul_add_one]
        omega
      · simp only [List.map_cons, List.sum_cons, ih]
        omega

/-- The entries of a histogram are all its observations. -/
theorem weightedSum_ofList (observed : List Nat) :
    weightedSum (ofList observed).entries = observed.sum := by
  induction observed using List.reverseRecOn with
  | nil => rfl
  | append_singleton observed key ih =>
    rw [ofList_concat, List.sum_append_nat, ← ih]
    exact weightedSum_updateEntries key _

theorem mem_keys_ofList (observed : List Nat) (key : Nat) :
    key ∈ (ofList observed).keys ↔ key ∈ observed := by
  have found (count : Nat) := SortedTable.lookup_eq_some_iff key count (ofList observed).sorted
  have counted := get?_ofList observed key
  constructor
  · intro listed
    obtain ⟨⟨_, count⟩, inside, rfl⟩ := List.mem_map.1 listed
    by_contra unseen
    rw [if_neg unseen, SortedTable.get?, (found count).2 inside] at counted
    cases counted
  · intro seen
    rw [if_pos seen] at counted
    exact List.mem_map_of_mem ((found _).1 counted)

/-- The largest key is the largest observation. -/
theorem max?_keys_ofList (observed : List Nat) : (ofList observed).keys.max? = observed.max? := by
  ext most
  simp only [List.max?_eq_some_iff, mem_keys_ofList]

end Histogram

namespace Dataflow

/-- An entry of the histogram, added to the two sums. -/
def addReady (sums entry : Nat × Nat) : Nat × Nat :=
  (satAdd sums.1 (satMul entry.1 entry.2), satAdd sums.2 entry.2)

/-- Entries in any order are summed up exactly, as far as a word holds the sums. -/
theorem foldl_addReady (ready cycles : Nat) (entries : List (Nat × Nat)) :
    entries.foldl addReady (min ready maxWord, min cycles maxWord) =
      (min (ready + Histogram.weightedSum entries) maxWord,
        min (cycles + (entries.map Prod.snd).sum) maxWord) := by
  induction entries generalizing ready cycles with
  | nil => rfl
  | cons entry entries ih =>
    obtain ⟨key, count⟩ := entry
    have product : satAdd (min ready maxWord) (satMul key count) =
        min (ready + key * count) maxWord := by
      rw [satAdd_min, satMul]
      omega
    rw [List.foldl_cons, addReady, product, satAdd_min, ih]
    simp only [Histogram.weightedSum, List.map_cons, List.sum_cons, Nat.add_assoc]

/-- What is kept of the samples: the histogram, the most ready instructions, and the number of
samples. -/
def readySamples (dataflow : Dataflow) : Histogram × Nat × Nat :=
  (dataflow.readyHistogram, dataflow.maxReady, dataflow.sampledCycles)

/-- What is kept after one more sample. -/
def takeSample : Histogram × Nat × Nat → Nat → Histogram × Nat × Nat
  | (histogram, most, cycles), ready => (histogram.add ready, max most ready, cycles + 1)

theorem foldl_takeSample (observed : List Nat) :
    observed.foldl takeSample (.empty, 0, 0) =
      (.ofList observed, observed.foldl max 0, observed.length) := by
  induction observed using List.reverseRecOn with
  | nil => rfl
  | append_singleton observed ready ih =>
    rw [List.foldl_concat, ih, takeSample, Histogram.ofList_concat, List.foldl_concat,
      List.length_append, List.length_singleton]

end Dataflow

namespace Engine

/-- The ready instructions that a call tells of a cycle. -/
def Call.ready? : Call → Option Nat
  | .event (.parallelism ready _) => some ready.toNat
  | _ => none

/-- The ready instructions of the sampled cycles of a run. -/
def readies (calls : List Call) : List Nat :=
  calls.filterMap Call.ready?

/-- What a run keeps of its samples. -/
theorem readySamples_after (config : Config) (calls : List Call) :
    (after config calls).summary.dataflow.readySamples =
      (.ofList (readies calls), (readies calls).foldl max 0, (readies calls).length) := by
  rw [← Dataflow.foldl_takeSample]
  refine foldl_part (fun engine => engine.summary.dataflow.readySamples) ?_ (start config) calls
  intro engine call
  cases call with
  | event event =>
    cases event with
    | cycleEnd cycle sample => cases sample <;> rfl
    | _ => rfl
  | _ => rfl

/-- After a run with no more samples than a word can count, the histogram has exactly the numbers of
ready instructions that were seen, each with how often it was seen. The counts sum up to the number
of samples, and the largest key is the most instructions that were ready, which is zero without
samples. What the mean divides is the sum of all samples, as far as a word holds it, and the number
of samples. The order of the samples makes no difference to any of this, nor does the order in which
the entries of the histogram are summed up. -/
theorem ready_samples_add_up (config : Config) (calls : List Call)
    (few : (readies calls).length ≤ maxWord) :
    let dataflow := (after config calls).summary.dataflow
    let histogram := dataflow.readyHistogram
    (∀ ready, histogram.get? ready =
      if ready ∈ readies calls then some ((readies calls).count ready) else none) ∧
    histogram.total = dataflow.sampledCycles ∧ dataflow.sampledCycles = (readies calls).length ∧
    dataflow.maxReady = histogram.keys.max?.getD 0 ∧
    dataflow.readySums = (min (readies calls).sum maxWord, dataflow.sampledCycles) ∧
    dataflow.avgParallelism =
      ratio (min (readies calls).sum maxWord) dataflow.sampledCycles ∧
    (∀ otherConfig others, (readies others).Perm (readies calls) →
      let otherDataflow := (after otherConfig others).summary.dataflow
      otherDataflow.readySamples = dataflow.readySamples ∧
        otherDataflow.readySums = dataflow.readySums) ∧
    ∀ entries : List (Nat × Nat), entries.Perm histogram.entries →
      entries.foldl Dataflow.addReady (0, 0) = dataflow.readySums := by
  intro dataflow histogram
  have kept : dataflow.readySamples =
      (.ofList (readies calls), (readies calls).foldl max 0, (readies calls).length) :=
    readySamples_after config calls
  have isHistogram : histogram = .ofList (readies calls) := congrArg Prod.fst kept
  have isMost : dataflow.maxReady = (readies calls).foldl max 0 :=
    congrArg (fun samples => samples.2.1) kept
  have isNumber : dataflow.sampledCycles = (readies calls).length :=
    congrArg (fun samples => samples.2.2) kept
  have total : histogram.total = dataflow.sampledCycles := by
    rw [isHistogram, Histogram.total_ofList, isNumber]
  have sums (entries : List (Nat × Nat)) (permuted : entries.Perm histogram.entries) :
      entries.foldl Dataflow.addReady (0, 0) =
        (min (readies calls).sum maxWord, dataflow.sampledCycles) := by
    have fits : dataflow.sampledCycles ≤ maxWord := isNumber ▸ few
    have ready : Histogram.weightedSum entries = (readies calls).sum := by
      rw [← Histogram.weightedSum_ofList, ← isHistogram]
      exact (permuted.map _).sum_nat
    have cycles : (entries.map Prod.snd).sum = dataflow.sampledCycles :=
      (permuted.map _).sum_nat.trans total
    have folded := Dataflow.foldl_addReady 0 0 entries
    rwa [Nat.zero_min, Nat.zero_add, Nat.zero_add, ready, cycles, Nat.min_eq_left fits] at folded
  have isSum : dataflow.readySums =
      (min (readies calls).sum maxWord, dataflow.sampledCycles) :=
    sums histogram.entries (.refl _)
  refine ⟨fun ready => ?_, total, isNumber, ?_, isSum, ?_, ?_, fun entries permuted => ?_⟩
  · rw [isHistogram, Histogram.get?_ofList]
  · rw [isHistogram, Histogram.max?_keys_ofList, isMost, List.foldl_max, Nat.zero_max]
  · rw [Dataflow.avgParallelism, isSum]
  · intro otherConfig others permuted otherDataflow
    have same : otherDataflow.readySamples = dataflow.readySamples := by
      rw [kept, ← Histogram.ofList_perm permuted, ← permuted.foldl_eq, ← permuted.length_eq]
      exact readySamples_after otherConfig others
    exact ⟨same, congrArg (fun samples : Histogram × Nat × Nat =>
      samples.1.entries.foldl Dataflow.addReady (0, 0)) same⟩
  · rw [sums entries permuted, isSum]

/-- Three samples in a run with other events. Two of them are the largest word, so that their
product with their count does not fit. -/
theorem large_samples_add_up :
    let calls : List Call := [.event (.parallelism 0xFFFFFFFFFFFFFFFF 1), .event (.noStall),
      .event (.parallelism 3 1), .event (.parallelism 0xFFFFFFFFFFFFFFFF 0)]
    let dataflow := (after .standard calls).summary.dataflow
    (readies calls).length ≤ maxWord ∧ dataflow.readySums = (maxWord, 3) := by
  intro calls dataflow
  have few : (readies calls).length ≤ maxWord := by decide
  obtain ⟨-, -, -, -, sums, -⟩ := ready_samples_add_up .standard calls few
  exact ⟨few, sums⟩

end Engine

end AccelProfile
