import AccelProfile.Event.Codec
import AccelProfile.Proofs.RecordFields

/-!
# Events read back

An event is written as one object with the name of its kind in front. Reading takes the name
off, finds the record of that kind, and gets each part of the event from the member that was
written for it. So the text of an event reads as that event, as long as its doubles are
finite: no other value is lost or changed on the way, down to the ends of the words and to
the parts that an event may leave out.
-/

namespace AccelProfile

open Scan (ofJson ofMembers)
open Decoder Fields

namespace Tagged

variable {κ : Type} {tagName : String} {kind : String → Except ReadError κ}

/-- Members other than the tag are set aside as they are. -/
theorem gather_ofMembers (tag : Option κ) {members : List (String × Json)}
    (noTag : ∀ member ∈ members, member.1 ≠ tagName)
    (shallow : Json.depthMembers members ≤ nestingLimit - 1) :
    gather tagName kind tag (ofMembers members) = .ok (tag, ofMembers members) := by
  induction members with
  | nil => rfl
  | cons member others ih =>
    obtain ⟨key, json⟩ := member
    have both := Nat.max_le.1 shallow
    have readable : isReadable (ofJson json) = true := by
      rw [isReadable, Scan.toJson?_ofJson both.1]
      rfl
    have ofOthers := ih (fun member inside => noTag member (List.mem_cons_of_mem _ inside)) both.2
    simp only [ofMembers, gather, if_neg (noTag (key, json) List.mem_cons_self), if_pos readable,
      ofOthers]
    rfl

/-- A tag in front is taken off. -/
theorem split_ofMembers {name : String} {tag : κ} (isTag : kind name = .ok tag)
    {members : List (String × Json)} (noTag : ∀ member ∈ members, member.1 ≠ tagName)
    (shallow : Json.depthMembers members ≤ nestingLimit - 1) :
    split tagName kind (ofJson (.obj ((tagName, .str name) :: members))) =
      .ok (tag, ofJson (.obj members)) := by
  have rest : gather tagName kind (some tag) (ofMembers members) =
      .ok (some tag, ofMembers members) := gather_ofMembers (some tag) noTag shallow
  simp only [ofJson, ofMembers, split, gather, if_true, readTag, isTag]
  change ((gather tagName kind (some tag) (ofMembers members)) >>= _) = _
  rw [rest]
  rfl

end Tagged

theorem Uid.reads (uid : Uid) : Uid.decoder.Reads uid.toJson uid := by
  intro mode
  rw [Uid.decoder, Uid.toJson, Uid.toNat, reads_word uid.val mode]
  rfl

theorem Opcode.reads (opcode : Opcode) : Opcode.decoder.Reads opcode.toJson opcode := by
  intro mode
  rw [Opcode.decoder, Opcode.toJson, Opcode.toNat, reads_halfWord opcode.val mode]
  rfl

theorem MemoryKind.reads (kind : MemoryKind) : MemoryKind.decoder.Reads kind.toJson kind :=
  reads_choice (by decide) (by cases kind <;> decide)

theorem FuClass.reads (fu : FuClass) : FuClass.decoder.Reads fu.toJson fu :=
  reads_choice (by decide) (by cases fu <;> decide)

theorem StallCause.reads (cause : StallCause) : StallCause.decoder.Reads cause.toJson cause :=
  reads_choice (by decide) (by cases cause <;> decide)

theorem DepKinds.reads (kinds : DepKinds) : DepKinds.decoder.Reads kinds.toJson kinds := by
  have reads := (reads_optional "raw" false (reads_bool kinds.raw)).map DepKinds.mk
    |>.seq (reads_optional "war" false (reads_bool kinds.war))
    |>.seq (reads_optional "waw" false (reads_bool kinds.waw))
    |>.seq (reads_optional "control" false (reads_bool kinds.control))
    |>.seq (reads_optional "memory" false (reads_bool kinds.memory))
  exact reads.decoder (by decide)

theorem Edge.reads (edge : Edge) : Edge.eventFields.Reads edge.members edge :=
  (reads_required "producer" edge.producer.reads).map Edge.mk
    |>.seq (reads_required "consumer" edge.consumer.reads)
    |>.seq (reads_optional "kinds" .trueOnly edge.kinds.reads)

theorem MemoryAccess.reads (access : MemoryAccess) :
    MemoryAccess.fields.Reads access.members access :=
  (reads_required "kind" access.kind.reads).map MemoryAccess.mk
    |>.seq (reads_optional "addr" none
      (reads_ofOption reads_word (fun addr => by simp [Json.ofNat]) access.addr))
    |>.seq (reads_optional "bytes" 0 (reads_word access.bytes))
    |>.seq (reads_optional "latency" 0 (reads_word access.latency))
    |>.seq (reads_optional "cache_hit" false (reads_bool access.cacheHit))

theorem CycleSample.reads (sample : CycleSample) :
    CycleSample.decoder.Reads sample.toJson sample := by
  have reads := (reads_optional "cycle" 0 (reads_word sample.cycle)).map CycleSample.mk
    |>.seq (reads_optional "res_in_flight" 0 (reads_halfWord sample.reservationInFlight))
    |>.seq (reads_optional "load_in_flight" 0 (reads_halfWord sample.loadInFlight))
    |>.seq (reads_optional "load_internal" 0 (reads_halfWord sample.loadInternal))
    |>.seq (reads_optional "load_active" 0 (reads_halfWord sample.loadActive))
    |>.seq (reads_optional "load_raw_stall" 0 (reads_halfWord sample.loadRawStall))
    |>.seq (reads_optional "store_in_flight" 0 (reads_halfWord sample.storeInFlight))
    |>.seq (reads_optional "store_active" 0 (reads_halfWord sample.storeActive))
    |>.seq (reads_optional "comp_in_flight" 0 (reads_halfWord sample.computeInFlight))
    |>.seq (reads_optional "comp_launched" 0 (reads_halfWord sample.computeLaunched))
    |>.seq (reads_optional "comp_active" 0 (reads_halfWord sample.computeActive))
    |>.seq (reads_optional "comp_fu_stall" 0 (reads_halfWord sample.computeFuStall))
    |>.seq (reads_optional "comp_committed" 0 (reads_halfWord sample.computeCommitted))
  exact reads.decoder (by decide)

/-- No figure is infinite or not a number. -/
structure PowerInputs.Finite (inputs : PowerInputs) : Prop where
  fuLeakage : inputs.fuLeakage.isFinite = true
  fuDynamic : inputs.fuDynamic.isFinite = true
  regLeakage : inputs.regLeakage.isFinite = true
  regDynamic : inputs.regDynamic.isFinite = true
  spmLeakage : inputs.spmLeakage.isFinite = true
  spmReadDynamic : inputs.spmReadDynamic.isFinite = true
  spmWriteDynamic : inputs.spmWriteDynamic.isFinite = true
  cacheLeakage : inputs.cacheLeakage.isFinite = true
  cacheReadDynamic : inputs.cacheReadDynamic.isFinite = true
  cacheWriteDynamic : inputs.cacheWriteDynamic.isFinite = true

theorem PowerInputs.reads {inputs : PowerInputs} (finite : inputs.Finite) :
    PowerInputs.fields.Reads inputs.members inputs :=
  (reads_optional "fu_leakage" 0 (reads_float finite.fuLeakage)).map PowerInputs.mk
    |>.seq (reads_optional "fu_dynamic" 0 (reads_float finite.fuDynamic))
    |>.seq (reads_optional "reg_leakage" 0 (reads_float finite.regLeakage))
    |>.seq (reads_optional "reg_dynamic" 0 (reads_float finite.regDynamic))
    |>.seq (reads_optional "spm_leakage" 0 (reads_float finite.spmLeakage))
    |>.seq (reads_optional "spm_read_dynamic" 0 (reads_float finite.spmReadDynamic))
    |>.seq (reads_optional "spm_write_dynamic" 0 (reads_float finite.spmWriteDynamic))
    |>.seq (reads_optional "cache_leakage" 0 (reads_float finite.cacheLeakage))
    |>.seq (reads_optional "cache_read_dynamic" 0 (reads_float finite.cacheReadDynamic))
    |>.seq (reads_optional "cache_write_dynamic" 0 (reads_float finite.cacheWriteDynamic))

/-- No figure is infinite or not a number. -/
structure AreaInputs.Finite (inputs : AreaInputs) : Prop where
  fu : inputs.fu.isFinite = true
  reg : inputs.reg.isFinite = true
  spm : inputs.spm.isFinite = true
  cache : inputs.cache.isFinite = true

theorem AreaInputs.reads {inputs : AreaInputs} (finite : inputs.Finite) :
    AreaInputs.fields.Reads inputs.members inputs :=
  (reads_optional "fu" 0 (reads_float finite.fu)).map AreaInputs.mk
    |>.seq (reads_optional "reg" 0 (reads_float finite.reg))
    |>.seq (reads_optional "spm" 0 (reads_float finite.spm))
    |>.seq (reads_optional "cache" 0 (reads_float finite.cache))

namespace Event

/-- All doubles of an event are finite. -/
def Finite : Event → Prop
  | .power inputs => inputs.Finite
  | .area inputs => inputs.Finite
  | _ => True

/-- The data of an event are read back as the data of an event of its kind. -/
theorem reads_data {event : Event} (finite : event.Finite) :
    event.kind.decoder.Reads (.obj event.members) event := by
  cases event with
  | dependency edge => exact (edge.reads.map Event.dependency).decoder (by decide)
  | commit uid opcode isLoad isStore =>
    have reads := (reads_required "uid" uid.reads).map Event.commit
      |>.seq (reads_required "opcode" opcode.reads)
      |>.seq (reads_optional "is_load" false (reads_bool isLoad))
      |>.seq (reads_optional "is_store" false (reads_bool isStore))
    exact reads.decoder (by decide)
  | stall cause =>
    exact ((reads_required "cause" cause.reads).map Event.stall).decoder (by decide)
  | noStall => exact fun mode => rfl
  | parallelism ready issued =>
    have reads := (reads_required "ready" (reads_word ready)).map Event.parallelism
      |>.seq (reads_optional "issued" 0 (reads_word issued))
    exact reads.decoder (by decide)
  | cycleStart => exact fun mode => rfl
  | cycleEnd cycle sample =>
    have ofSample := reads_ofOption CycleSample.reads
      (fun sample => by simp [CycleSample.toJson]) sample
    have reads := (reads_required "cycle" (reads_word cycle)).map Event.cycleEnd
      |>.seq (reads_optional "sample" none ofSample)
    exact reads.decoder (by decide)
  | memoryRead access => exact (access.reads.map Event.memoryRead).decoder (by decide)
  | memoryWrite access => exact (access.reads.map Event.memoryWrite).decoder (by decide)
  | portContention isRead =>
    exact ((reads_required "is_read" (reads_bool isRead)).map Event.portContention).decoder
      (by decide)
  | busWidths read write =>
    have reads := (reads_required "read" (reads_word read)).map Event.busWidths
      |>.seq (reads_required "write" (reads_word write))
    exact reads.decoder (by decide)
  | fuBusy fu start stop =>
    have reads := (reads_required "fu" fu.reads).map Event.fuBusy
      |>.seq (reads_required "start" (reads_word start))
      |>.seq (reads_required "end" (reads_word stop))
    exact reads.decoder (by decide)
  | fuContention fu =>
    exact ((reads_required "fu" fu.reads).map Event.fuContention).decoder (by decide)
  | fuInstances fu count =>
    have reads := (reads_required "fu" fu.reads).map Event.fuInstances
      |>.seq (reads_required "count" (reads_halfWord count))
    exact reads.decoder (by decide)
  | power inputs => exact ((PowerInputs.reads finite).map Event.power).decoder (by decide)
  | area inputs => exact ((AreaInputs.reads finite).map Event.area).decoder (by decide)

/-- No datum of an event is taken for its tag. -/
theorem members_ne_tagName (event : Event) : ∀ member ∈ event.members, member.1 ≠ tagName := by
  cases event <;>
    simp [members, tagName, Edge.members, MemoryAccess.members, PowerInputs.members,
      AreaInputs.members]

/-- The data of an event are numbers, names and flags, or one object of these. -/
theorem depthMembers_members (event : Event) : Json.depthMembers event.members ≤ 1 := by
  cases event with
  | cycleEnd cycle sample =>
    cases sample <;>
      simp [members, Json.depthMembers, Json.depth, Json.ofOption, CycleSample.toJson]
  | memoryRead access =>
    cases addr : access.addr <;>
      simp [members, MemoryAccess.members, MemoryKind.toJson, Json.depthMembers, Json.depth,
        Json.ofOption, addr]
  | memoryWrite access =>
    cases addr : access.addr <;>
      simp [members, MemoryAccess.members, MemoryKind.toJson, Json.depthMembers, Json.depth,
        Json.ofOption, addr]
  | _ =>
    simp [members, Edge.members, PowerInputs.members, AreaInputs.members, Uid.toJson,
      Opcode.toJson, StallCause.toJson, FuClass.toJson, DepKinds.toJson, Json.depthMembers,
      Json.depth]

@[simp]
theorem readable_word (value : UInt64) : (Json.ofNat value.toNat).Readable :=
  (Json.readable_ofNat_iff _).2 (Nat.le_of_lt_succ value.toNat_lt)

@[simp]
theorem readable_halfWord (value : UInt32) : (Json.ofNat value.toNat).Readable := by
  have within : value.toNat ≤ maxHalfWord := Nat.le_of_lt_succ value.toNat_lt
  exact (Json.readable_ofNat_iff _).2 (Nat.le_trans within (by decide))

/-- All numbers of an event read back: a measure that is not finite is no number there. -/
theorem readable_members (event : Event) : Json.ReadableMembers event.members := by
  cases event with
  | cycleEnd cycle sample =>
    cases sample <;>
      simp [members, Json.ReadableMembers, Json.Readable, Json.ofOption, CycleSample.toJson]
  | memoryRead access =>
    cases addr : access.addr <;>
      simp [members, MemoryAccess.members, MemoryKind.toJson, Json.ReadableMembers,
        Json.Readable, Json.ofOption, addr]
  | memoryWrite access =>
    cases addr : access.addr <;>
      simp [members, MemoryAccess.members, MemoryKind.toJson, Json.ReadableMembers,
        Json.Readable, Json.ofOption, addr]
  | _ =>
    simp [members, Edge.members, PowerInputs.members, AreaInputs.members, Uid.toJson, Uid.toNat,
      Opcode.toJson, Opcode.toNat, StallCause.toJson, FuClass.toJson, DepKinds.toJson,
      Json.ReadableMembers, Json.Readable]

theorem readable_toJson (event : Event) : event.toJson.Readable :=
  ⟨trivial, event.readable_members⟩

/-- An event is read back from its object. -/
theorem reads {event : Event} (finite : event.Finite) :
    Event.decoder.Reads event.toJson event := by
  intro mode
  have isTag : named EventKind.all EventKind.name event.kind.name = .ok event.kind :=
    named_name (by decide) (by cases event.kind <;> decide)
  have taken := Tagged.split_ofMembers isTag event.members_ne_tagName
    (Nat.le_trans event.depthMembers_members (by decide))
  rw [Event.decoder, toJson, taken]
  exact reads_data finite .buffered

/-- An event is read back from any text that lays out its object. -/
theorem ofText_laid {event : Event} (finite : event.Finite) {text : List Char}
    (laid : Json.Laid event.toJson text) : Event.ofText text = .ok event :=
  (reads finite).readText laid

/-- An event is read back from its own text. -/
theorem ofText_compact {event : Event} (finite : event.Finite) :
    Event.ofText event.toJson.compact = .ok event :=
  ofText_laid finite (Json.laid_compact event.readable_toJson)

end Event

end AccelProfile
