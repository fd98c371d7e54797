import AccelProfile.Json.Decoder
import AccelProfile.Words
/-!
# The window of cycle samples

A sample says how full the queues were in one cycle. Samples are kept in a window of
bounded size: when it is full, the oldest one makes room for the newest. The summary of a
run speaks of the samples in the window and says how many others there were.

A sample is filled in while its cycle is under way and stored when the cycle ends. Storing
does not clear it; only the start of a cycle does.

The memory for a full window is reserved before the first sample. Its size is a number that
somebody chose, so the reservation can fail, and with it the run that asks for it.
-/

namespace AccelProfile

/-- How full the queues were in one cycle. -/
structure CycleSample where
  cycle : UInt64
  /-- Instructions in the reservation queue. -/
  reservationInFlight : UInt32
  loadInFlight : UInt32
  /-- Loads from memory inside the accelerator. -/
  loadInternal : UInt32
  loadActive : UInt32
  /-- Loads that wait for a store. -/
  loadRawStall : UInt32
  storeInFlight : UInt32
  storeActive : UInt32
  computeInFlight : UInt32
  computeLaunched : UInt32
  computeActive : UInt32
  /-- Computations that wait for a functional unit. -/
  computeFuStall : UInt32
  computeCommitted : UInt32
  deriving DecidableEq, Repr, Inhabited

namespace CycleSample

/-- The sample of a cycle in which nothing was under way. -/
def zero : CycleSample :=
  ⟨0, 0, 0, 0, 0, 0, 0, 0, 0, 0, 0, 0, 0⟩

/-- The bytes of memory that one sample takes: a word and twelve half words. -/
def bytes : Nat := 56

/-- A sample as an object. -/
def toJson (sample : CycleSample) : Json :=
  .obj [("cycle", .ofNat sample.cycle.toNat),
    ("res_in_flight", .ofNat sample.reservationInFlight.toNat),
    ("load_in_flight", .ofNat sample.loadInFlight.toNat),
    ("load_internal", .ofNat sample.loadInternal.toNat),
    ("load_active", .ofNat sample.loadActive.toNat),
    ("load_raw_stall", .ofNat sample.loadRawStall.toNat),
    ("store_in_flight", .ofNat sample.storeInFlight.toNat),
    ("store_active", .ofNat sample.storeActive.toNat),
    ("comp_in_flight", .ofNat sample.computeInFlight.toNat),
    ("comp_launched", .ofNat sample.computeLaunched.toNat),
    ("comp_active", .ofNat sample.computeActive.toNat),
    ("comp_fu_stall", .ofNat sample.computeFuStall.toNat),
    ("comp_committed", .ofNat sample.computeCommitted.toNat)]

/-- A sample as a record; a number that is missing is zero. -/
def fields : Fields CycleSample :=
  CycleSample.mk <$> .optional "cycle" Decoder.word 0
    <*> .optional "res_in_flight" Decoder.halfWord 0
    <*> .optional "load_in_flight" Decoder.halfWord 0
    <*> .optional "load_internal" Decoder.halfWord 0
    <*> .optional "load_active" Decoder.halfWord 0
    <*> .optional "load_raw_stall" Decoder.halfWord 0
    <*> .optional "store_in_flight" Decoder.halfWord 0
    <*> .optional "store_active" Decoder.halfWord 0
    <*> .optional "comp_in_flight" Decoder.halfWord 0
    <*> .optional "comp_launched" Decoder.halfWord 0
    <*> .optional "comp_active" Decoder.halfWord 0
    <*> .optional "comp_fu_stall" Decoder.halfWord 0
    <*> .optional "comp_committed" Decoder.halfWord 0

/-- Reads a sample. -/
def decoder : Decoder CycleSample :=
  fields.decoder

end CycleSample

/-- What the samples of a window amount to. -/
structure CycleSummary where
  /-- The number of samples. -/
  samples : Nat
  /-- The number of samples that made room for others. -/
  evicted : Nat
  avgReservation : Float
  avgLoad : Float
  avgStore : Float
  avgCompute : Float
  peakReservation : Nat
  peakLoad : Nat
  peakStore : Nat
  peakCompute : Nat
  /-- The sum of the loads that waited for a store. -/
  loadRawStalls : Nat
  /-- The sum of the computations that waited for a functional unit. -/
  computeFuStalls : Nat
  deriving DecidableEq, Inhabited

namespace CycleSummary

/-- The numbers of a summary with their names. -/
def toJson (summary : CycleSummary) : Json :=
  .obj [("samples", .ofNat summary.samples), ("evicted", .ofNat summary.evicted),
    ("avg_res_in_flight", .ofFloat summary.avgReservation),
    ("avg_load_in_flight", .ofFloat summary.avgLoad),
    ("avg_store_in_flight", .ofFloat summary.avgStore),
    ("avg_comp_in_flight", .ofFloat summary.avgCompute),
    ("peak_res_in_flight", .ofNat summary.peakReservation),
    ("peak_load_in_flight", .ofNat summary.peakLoad),
    ("peak_store_in_flight", .ofNat summary.peakStore),
    ("peak_comp_in_flight", .ofNat summary.peakCompute),
    ("total_load_raw_stalls", .ofNat summary.loadRawStalls),
    ("total_comp_fu_stalls", .ofNat summary.computeFuStalls)]

end CycleSummary

/-- The machine that a run is on, as far as reservations of memory depend on it. -/
structure Machine where
  /-- Whether a product beyond the largest word is noticed; it loses its upper bits if not. -/
  noticesOverflow : Bool
  /-- Whether so many bytes can be had. -/
  grants : Nat → Bool

/-- A machine with all the memory that can be asked for. -/
def Machine.spacious : Machine :=
  ⟨false, fun _ => true⟩

/-- Why memory cannot be reserved. -/
inductive ReservationFault
  /-- The number of items is beyond the largest word. -/
  | overflow
  /-- Nothing as large can be asked for. -/
  | tooLarge
  /-- The machine does not have so many bytes. -/
  | exhausted (bytes : Nat)
  deriving DecidableEq, Repr

/-- The wording of a fault. -/
def ReservationFault.message : ReservationFault → String
  | .overflow => "attempt to multiply with overflow"
  | .tooLarge => "capacity overflow"
  | .exhausted bytes => "memory allocation of " ++ toString bytes ++ " bytes failed"

/-- The most bytes that can be asked for at once. -/
def reservationLimit : Nat := 0x7FFFFFFFFFFFFFFF

/-- The latest samples of a run. -/
structure CycleWindow where
  /-- The sample of the cycle that is under way. -/
  current : CycleSample
  /-- The stored samples, the oldest one first. -/
  samples : List CycleSample
  /-- The number of samples that the window holds at most. -/
  capacity : Nat
  /-- The number of samples that made room for others. -/
  evicted : Nat
  deriving DecidableEq, Inhabited

namespace CycleWindow

/-- An empty window for so many samples. -/
def ofCapacity (capacity : Nat) : CycleWindow :=
  ⟨.zero, [], capacity, 0⟩

/-- An empty window of two buffers; a buffer holds at least one sample. -/
def ofBuffer (bufferSize : Nat) : CycleWindow :=
  ofCapacity (2 * max bufferSize 1)

/-- The number of samples in two buffers, as the machine counts them in one word. -/
def capacity? (machine : Machine) (bufferSize : UInt64) : Except ReservationFault Nat :=
  let capacity := 2 * max bufferSize.toNat 1
  if capacity ≤ maxWord then .ok capacity
  else if machine.noticesOverflow then .error .overflow
  else .ok (capacity % (maxWord + 1))

/-- Reserves an empty window of two buffers. One for no samples at all needs no memory. -/
def reserve? (machine : Machine) (bufferSize : UInt64) : Except ReservationFault CycleWindow := do
  let capacity ← capacity? machine bufferSize
  let bytes := capacity * CycleSample.bytes
  if reservationLimit < bytes then .error .tooLarge
  else if bytes = 0 ∨ machine.grants bytes then .ok (ofCapacity capacity)
  else .error (.exhausted bytes)

/-- Two buffers can be reserved where a reservation can be as large and the machine has as much
    memory. -/
theorem reserve?_eq_ok {machine : Machine} {bufferSize : UInt64}
    (fits : 2 * max bufferSize.toNat 1 * CycleSample.bytes ≤ reservationLimit)
    (granted : machine.grants (2 * max bufferSize.toNat 1 * CycleSample.bytes) = true) :
    reserve? machine bufferSize = .ok (ofBuffer bufferSize.toNat) := by
  have small : 2 * max bufferSize.toNat 1 ≤ maxWord := by
    simp only [CycleSample.bytes, reservationLimit, maxWord] at fits ⊢
    omega
  have counted : capacity? machine bufferSize = .ok (2 * max bufferSize.toNat 1) := by
    simp only [capacity?, if_pos small]
  rw [reserve?, counted]
  change (if reservationLimit < _ then _ else if _ then _ else _) = _
  rw [if_neg (Nat.not_lt.2 fits), if_pos (Or.inr granted), ofBuffer]

/-- Starts a cycle with a clear sample. -/
def start (window : CycleWindow) : CycleWindow :=
  { window with current := .zero }

/-- Fills in the sample of the cycle that is under way. -/
def setCurrent (window : CycleWindow) (sample : CycleSample) : CycleWindow :=
  { window with current := sample }

/-- Ends a cycle: its sample gets the number of the cycle and is stored. -/
def finish (window : CycleWindow) (cycle : UInt64) : CycleWindow :=
  let stored := { window.current with cycle }
  if window.samples.length = window.capacity then
    { window with
      current := stored
      samples := window.samples.drop 1 ++ [stored]
      evicted := window.evicted + 1 }
  else { window with current := stored, samples := window.samples ++ [stored] }

/-- The sum of a number over the samples. -/
def sumOf (window : CycleWindow) (number : CycleSample → UInt32) : Nat :=
  (window.samples.map fun sample => (number sample).toNat).sum

/-- The largest value of a number among the samples, zero if there are none. -/
def peakOf (window : CycleWindow) (number : CycleSample → UInt32) : Nat :=
  window.samples.foldl (fun peak sample => max peak (number sample).toNat) 0

/-- The mean of a number over the samples, zero if there are none. -/
def meanOf (window : CycleWindow) (number : CycleSample → UInt32) : Float :=
  ratio (window.sumOf number) window.samples.length

/-- What the samples of the window amount to. -/
def summarize (window : CycleWindow) : CycleSummary where
  samples := window.samples.length
  evicted := window.evicted
  avgReservation := window.meanOf (·.reservationInFlight)
  avgLoad := window.meanOf (·.loadInFlight)
  avgStore := window.meanOf (·.storeInFlight)
  avgCompute := window.meanOf (·.computeInFlight)
  peakReservation := window.peakOf (·.reservationInFlight)
  peakLoad := window.peakOf (·.loadInFlight)
  peakStore := window.peakOf (·.storeInFlight)
  peakCompute := window.peakOf (·.computeInFlight)
  loadRawStalls := window.sumOf (·.loadRawStall)
  computeFuStalls := window.sumOf (·.computeFuStall)

end CycleWindow

end AccelProfile
