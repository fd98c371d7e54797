import AccelProfile.Json.Decoder
import AccelProfile.Words
/-!
# Stalls

A cycle in which nothing moved forward is a stall and has one cause. The breakdown counts
the stalled cycles of each cause, and looks at streaks: stalls that follow each other
without a cycle of progress between them.
-/

namespace AccelProfile

/-- Why a cycle made no progress. -/
inductive StallCause
  /-- Waiting for memory to answer. -/
  | memoryLatency
  /-- A value that is read was not written yet. -/
  | rawHazard
  /-- A value that is written was not written by an earlier instruction yet. -/
  | wawHazard
  /-- A value that is written was not read by an earlier instruction yet. -/
  | warHazard
  /-- All functional units of a class were busy. -/
  | fuContention
  /-- All memory ports were busy. -/
  | portContention
  /-- A transfer by direct memory access was under way. -/
  | dmaPending
  /-- A queue or buffer was full. -/
  | resourceLimit
  deriving DecidableEq, Repr, Inhabited

namespace StallCause

/-- All causes in the order of the reports. -/
def all : List StallCause :=
  [.memoryLatency, .rawHazard, .wawHazard, .warHazard, .fuContention, .portContention,
    .dmaPending, .resourceLimit]

/-- The place of a cause in the order of the reports. -/
def index : StallCause → Fin 8
  | .memoryLatency => 0
  | .rawHazard => 1
  | .wawHazard => 2
  | .warHazard => 3
  | .fuContention => 4
  | .portContention => 5
  | .dmaPending => 6
  | .resourceLimit => 7

theorem index_injective {cause other : StallCause} (same : cause.index = other.index) :
    cause = other := by
  cases cause <;> cases other <;> simp_all [index]

/-- The name of a cause. -/
def name : StallCause → String
  | .memoryLatency => "memory_latency"
  | .rawHazard => "raw_hazard"
  | .wawHazard => "waw_hazard"
  | .warHazard => "war_hazard"
  | .fuContention => "fu_contention"
  | .portContention => "port_contention"
  | .dmaPending => "dma_pending"
  | .resourceLimit => "resource_limit"

/-- A cause is its name. -/
def toJson (cause : StallCause) : Json :=
  .str cause.name

/-- Reads a cause. -/
def decoder : Decoder StallCause :=
  Decoder.choice all name

end StallCause

/-- The first of the candidates with the largest weight, if any weight is not zero. -/
def heaviest {α : Type} (weight : α → Nat) (candidates : List α) : Option α :=
  candidates.foldl
    (fun best candidate => if (best.elim 0 weight) < weight candidate then some candidate else best)
    none

/-- The stalls of a run. -/
structure StallBreakdown where
  /-- The stalled cycles of each cause, in the order of the reports. -/
  byCause : Vector Nat 8
  totalCycles : Nat
  /-- The length of the longest streak. -/
  longestStreak : Nat
  /-- The number of streaks. -/
  streaks : Nat
  /-- The length of the streak that is under way. -/
  currentStreak : Nat
  deriving DecidableEq, Inhabited

namespace StallBreakdown

/-- The breakdown of a run without stalls. -/
def empty : StallBreakdown :=
  ⟨Vector.replicate 8 0, 0, 0, 0, 0⟩

/-- Counts a stalled cycle. -/
def record (stalls : StallBreakdown) (cause : StallCause) : StallBreakdown :=
  { byCause := stalls.byCause.set cause.index (stalls.byCause[cause.index] + 1)
    totalCycles := stalls.totalCycles + 1
    longestStreak := max stalls.longestStreak (stalls.currentStreak + 1)
    streaks := if stalls.currentStreak = 0 then stalls.streaks + 1 else stalls.streaks
    currentStreak := stalls.currentStreak + 1 }

/-- Ends the streak that is under way, if any. -/
def recordProgress (stalls : StallBreakdown) : StallBreakdown :=
  { stalls with currentStreak := 0 }

/-- The stalled cycles of a cause. -/
def count (stalls : StallBreakdown) (cause : StallCause) : Nat :=
  stalls.byCause[cause.index]

/-- A stalled cycle counts for its cause and for no other. -/
theorem count_record (stalls : StallBreakdown) (cause other : StallCause) :
    (stalls.record cause).count other =
      stalls.count other + if other = cause then 1 else 0 := by
  by_cases same : other = cause
  · subst same
    simp [count, record]
  · have apart : ¬ (cause.index : Nat) = other.index := fun equal =>
      same (StallCause.index_injective (Fin.ext equal)).symm
    simp [count, record, same, apart]

/-- All causes with their stalled cycles, in the order of the reports. -/
def counts (stalls : StallBreakdown) : List (StallCause × Nat) :=
  StallCause.all.map fun cause => (cause, stalls.count cause)

/-- The mean length of a streak. -/
def avgDuration (stalls : StallBreakdown) : Float :=
  ratio stalls.totalCycles stalls.streaks

/-- The cause with the most stalled cycles, the earlier one on a tie. -/
def dominantCause (stalls : StallBreakdown) : Option StallCause :=
  heaviest stalls.count StallCause.all

/-- The breakdown as an object. The streak under way is not part of it. -/
def toJson (stalls : StallBreakdown) : Json :=
  .obj [("by_cause", .arr (stalls.byCause.toList.map .ofNat)),
    ("total_stall_cycles", .ofNat stalls.totalCycles),
    ("max_consecutive_stalls", .ofNat stalls.longestStreak),
    ("stall_events", .ofNat stalls.streaks)]

end StallBreakdown

end AccelProfile
