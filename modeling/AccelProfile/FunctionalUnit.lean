import AccelProfile.Stall
import AccelProfile.SortedTable
/-!
# Functional units

The units of the datapath come in classes. An operation holds a unit of its class from a
start cycle up to, and not including, an end cycle. How many units of a class are busy at
once is kept as a table of changes: at a start one more unit is busy, at an end one less.
Running through the changes in the order of the cycles gives the number of busy units
between any two of them, and its peak.
-/

namespace AccelProfile

/-- A class of functional units. -/
inductive FuClass
  | counter
  | intAddSub
  | intMulDiv
  | intShift
  | intBitwise
  | fpFloatAddSub
  | fpFloatMulDiv
  | fpDoubleAddSub
  | fpDoubleMulDiv
  /-- Operations that take no time. -/
  | zeroCycle
  /-- Address computations. -/
  | gep
  | conversion
  | other
  deriving DecidableEq, Repr, Inhabited

namespace FuClass

/-- All classes in the order of the reports. -/
def all : List FuClass :=
  [.counter, .intAddSub, .intMulDiv, .intShift, .intBitwise, .fpFloatAddSub, .fpFloatMulDiv,
    .fpDoubleAddSub, .fpDoubleMulDiv, .zeroCycle, .gep, .conversion, .other]

/-- The place of a class in the order of the reports. -/
def index : FuClass → Fin 13
  | .counter => 0
  | .intAddSub => 1
  | .intMulDiv => 2
  | .intShift => 3
  | .intBitwise => 4
  | .fpFloatAddSub => 5
  | .fpFloatMulDiv => 6
  | .fpDoubleAddSub => 7
  | .fpDoubleMulDiv => 8
  | .zeroCycle => 9
  | .gep => 10
  | .conversion => 11
  | .other => 12

theorem index_injective {fu second : FuClass} (same : fu.index = second.index) :
    fu = second := by
  cases fu <;> cases second <;> simp_all [index]

/-- The name of a class. -/
def name : FuClass → String
  | .counter => "counter"
  | .intAddSub => "int_addsub"
  | .intMulDiv => "int_muldiv"
  | .intShift => "int_shift"
  | .intBitwise => "int_bitwise"
  | .fpFloatAddSub => "fp_float_addsub"
  | .fpFloatMulDiv => "fp_float_muldiv"
  | .fpDoubleAddSub => "fp_double_addsub"
  | .fpDoubleMulDiv => "fp_double_muldiv"
  | .zeroCycle => "zero_cycle"
  | .gep => "gep"
  | .conversion => "conversion"
  | .other => "other"

/-- A class is its name. -/
def toJson (fu : FuClass) : Json :=
  .str fu.name

/-- Reads a class. -/
def decoder : Decoder FuClass :=
  Decoder.choice all name

end FuClass

/-- The cycles at which the number of busy units changes, with the changes. -/
abbrev Occupancy := SortedTable Int

namespace Occupancy

/-- Adds a change at a cycle. -/
def shift (occupancy : Occupancy) (cycle : Nat) (change : Int) : Occupancy :=
  occupancy.update cycle fun known => known.getD 0 + change

/-- One more unit is busy from a start to an end. -/
def hold (occupancy : Occupancy) (start stop : Nat) : Occupancy :=
  (occupancy.shift start 1).shift stop (-1)

/-- The largest number of busy units, from a number that is busy and a peak reached. -/
def peakFrom (busy peak : Int) : List Int → Int
  | [] => peak
  | change :: later => peakFrom (busy + change) (max peak (busy + change)) later

/-- The largest number of units that are busy at once. -/
def peak (occupancy : Occupancy) : Nat :=
  (peakFrom 0 0 occupancy.values).toNat

end Occupancy

/-- The counters of one class. -/
structure FuCounters where
  instances : Nat
  /-- The cycles in which units were held, summed over the operations. -/
  busyCycles : Nat
  operations : Nat
  /-- The requests that found all units busy. -/
  contentionStalls : Nat
  /-- The busy units over time. -/
  occupancy : Occupancy
  deriving Inhabited

namespace FuCounters

/-- The counters of a class that was not heard of. -/
def empty : FuCounters :=
  ⟨0, 0, 0, 0, .empty⟩

/-- Counts an operation that held a unit from a start to an end. One that ends where it
    starts, or before, took no time. -/
def hold (counters : FuCounters) (start stop : Nat) : FuCounters :=
  let counted := { counters with operations := counters.operations + 1 }
  if start < stop then
    { counted with
      busyCycles := satAdd counters.busyCycles (stop - start)
      occupancy := counters.occupancy.hold start stop }
  else counted

/-- The most units that were busy in the same cycle. -/
def maxConcurrent (counters : FuCounters) : Nat :=
  counters.occupancy.peak

/-- Busy cycles over the cycles that all units together had. -/
def utilization (counters : FuCounters) (totalCycles : Nat) : Float :=
  ratio counters.busyCycles (satMul totalCycles counters.instances)

/-- The share of the requests that found all units busy. -/
def contentionRate (counters : FuCounters) : Float :=
  ratio counters.contentionStalls (satAdd counters.operations counters.contentionStalls)

/-- Whether anything was heard of the class. -/
def isActive (counters : FuCounters) : Bool :=
  0 < counters.instances || 0 < counters.operations || 0 < counters.contentionStalls

/-- The counters as an object. The occupancy is not part of it. -/
def toJson (counters : FuCounters) : Json :=
  .obj [("instances", .ofNat counters.instances), ("busy_cycles", .ofNat counters.busyCycles),
    ("operations", .ofNat counters.operations),
    ("contention_stalls", .ofNat counters.contentionStalls)]

end FuCounters

/-- The use of all functional units. -/
structure FuUsage where
  /-- The counters of each class, in the order of the reports. -/
  byClass : Vector FuCounters 13
  totalBusyCycles : Nat
  /-- The requests of all classes that found all units busy. -/
  totalContentionStalls : Nat
  deriving Inhabited

namespace FuUsage

/-- The use of units that were not used. -/
def empty : FuUsage :=
  ⟨Vector.replicate 13 .empty, 0, 0⟩

/-- The counters of a class. -/
def get (usage : FuUsage) (fu : FuClass) : FuCounters :=
  usage.byClass[fu.index]

/-- The use with the counters of one class changed. -/
def modify (usage : FuUsage) (fu : FuClass) (change : FuCounters → FuCounters) : FuUsage :=
  { usage with byClass := usage.byClass.set fu.index (change (usage.get fu)) }

/-- A change to one class changes that class and no other. -/
theorem get_modify (usage : FuUsage) (fu second : FuClass) (change : FuCounters → FuCounters) :
    (usage.modify fu change).get second =
      if second = fu then change (usage.get fu) else usage.get second := by
  by_cases same : second = fu
  · subst same
    simp [get, modify]
  · have apart : ¬ (fu.index : Nat) = second.index := fun equal =>
      same (FuClass.index_injective (Fin.ext equal)).symm
    simp [get, modify, same, apart]

/-- Counts an operation that held a unit from a start to an end. -/
def recordBusy (usage : FuUsage) (fu : FuClass) (start stop : Nat) : FuUsage :=
  { usage.modify fu (·.hold start stop) with
    totalBusyCycles := satAdd usage.totalBusyCycles (stop - start) }

/-- Counts a request that found all units of a class busy. -/
def recordContention (usage : FuUsage) (fu : FuClass) : FuUsage :=
  { usage.modify fu fun counters =>
      { counters with contentionStalls := counters.contentionStalls + 1 } with
    totalContentionStalls := usage.totalContentionStalls + 1 }

/-- Sets the number of units of a class. -/
def setInstances (usage : FuUsage) (fu : FuClass) (count : Nat) : FuUsage :=
  usage.modify fu ({ · with instances := count })

/-- All classes with their counters, in the order of the reports. -/
def toList (usage : FuUsage) : List (FuClass × FuCounters) :=
  FuClass.all.map fun fu => (fu, usage.get fu)

/-- The number of units of all classes. -/
def totalInstances (usage : FuUsage) : Nat :=
  (usage.toList.map fun (_, counters) => counters.instances).sum

/-- Busy cycles over the cycles that all units of all classes together had. -/
def overallUtilization (usage : FuUsage) (totalCycles : Nat) : Float :=
  ratio usage.totalBusyCycles (satMul totalCycles usage.totalInstances)

/-- The class with the most contention, the earlier one on a tie. -/
def mostContended (usage : FuUsage) : Option FuClass :=
  heaviest (fun fu => (usage.get fu).contentionStalls) FuClass.all

/-- The use as an object. -/
def toJson (usage : FuUsage) : Json :=
  .obj [("by_type", .arr (usage.toList.map fun (_, counters) => counters.toJson)),
    ("total_busy_cycles", .ofNat usage.totalBusyCycles),
    ("total_contention_stalls", .ofNat usage.totalContentionStalls)]

end FuUsage

end AccelProfile
