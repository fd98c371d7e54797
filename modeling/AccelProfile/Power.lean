import AccelProfile.Json.Decoder
/-!
# Power, energy and area

Figures that a model of the hardware supplies for the parts of the accelerator, with their
sums: power in milliwatts, area in square micrometres, and the energy that the power takes
over the time of the run. Sums are taken in a fixed order, from left to right, because
doubles round at every step.
-/

namespace AccelProfile

/-- The power of the parts. -/
structure PowerInputs where
  fuLeakage : Float
  fuDynamic : Float
  regLeakage : Float
  regDynamic : Float
  spmLeakage : Float
  spmReadDynamic : Float
  spmWriteDynamic : Float
  cacheLeakage : Float
  cacheReadDynamic : Float
  cacheWriteDynamic : Float
  deriving DecidableEq, Inhabited

namespace PowerInputs

/-- No power at all. -/
def zero : PowerInputs :=
  ⟨0, 0, 0, 0, 0, 0, 0, 0, 0, 0⟩

/-- The members of the figures. -/
def members (inputs : PowerInputs) : List (String × Json) :=
  [("fu_leakage", .ofFloat inputs.fuLeakage), ("fu_dynamic", .ofFloat inputs.fuDynamic),
    ("reg_leakage", .ofFloat inputs.regLeakage), ("reg_dynamic", .ofFloat inputs.regDynamic),
    ("spm_leakage", .ofFloat inputs.spmLeakage),
    ("spm_read_dynamic", .ofFloat inputs.spmReadDynamic),
    ("spm_write_dynamic", .ofFloat inputs.spmWriteDynamic),
    ("cache_leakage", .ofFloat inputs.cacheLeakage),
    ("cache_read_dynamic", .ofFloat inputs.cacheReadDynamic),
    ("cache_write_dynamic", .ofFloat inputs.cacheWriteDynamic)]

/-- The figures as an object. -/
def toJson (inputs : PowerInputs) : Json :=
  .obj inputs.members

/-- The figures as a record; one that is missing is zero. -/
def fields : Fields PowerInputs :=
  PowerInputs.mk <$> .optional "fu_leakage" Decoder.float 0
    <*> .optional "fu_dynamic" Decoder.float 0
    <*> .optional "reg_leakage" Decoder.float 0
    <*> .optional "reg_dynamic" Decoder.float 0
    <*> .optional "spm_leakage" Decoder.float 0
    <*> .optional "spm_read_dynamic" Decoder.float 0
    <*> .optional "spm_write_dynamic" Decoder.float 0
    <*> .optional "cache_leakage" Decoder.float 0
    <*> .optional "cache_read_dynamic" Decoder.float 0
    <*> .optional "cache_write_dynamic" Decoder.float 0

/-- Reads the figures. -/
def decoder : Decoder PowerInputs :=
  fields.decoder

end PowerInputs

/-- The energy of the parts over the time of a run. -/
structure Energy where
  fu : Float
  reg : Float
  /-- The energy of the scratchpad and the cache. -/
  memory : Float
  /-- The energy of all parts. -/
  total : Float
  deriving DecidableEq, Inhabited

/-- The power of the parts and its sums. -/
structure Power where
  inputs : PowerInputs
  fu : Float
  reg : Float
  spm : Float
  cache : Float
  /-- The power of the datapath: functional units and registers. -/
  total : Float
  /-- The power of the datapath and the scratchpad. -/
  withSpm : Float
  /-- The power of the datapath and the cache. -/
  withCache : Float
  deriving DecidableEq, Inhabited

namespace Power

/-- The section of a run for which no power was supplied. -/
def empty : Power :=
  ⟨.zero, 0, 0, 0, 0, 0, 0, 0⟩

/-- The sums over the power of the parts. -/
def collect (inputs : PowerInputs) : Power :=
  let fu := inputs.fuLeakage + inputs.fuDynamic
  let reg := inputs.regLeakage + inputs.regDynamic
  let spm := inputs.spmLeakage + inputs.spmReadDynamic + inputs.spmWriteDynamic
  let cache := inputs.cacheLeakage + inputs.cacheReadDynamic + inputs.cacheWriteDynamic
  let total := fu + reg
  { inputs, fu, reg, spm, cache, total, withSpm := total + spm, withCache := total + cache }

/-- Leakage of the scratchpad and the cache. -/
def memoryLeakage (power : Power) : Float :=
  power.inputs.spmLeakage + power.inputs.cacheLeakage

/-- The power of the scratchpad and the cache. -/
def memoryTotal (power : Power) : Float :=
  power.spm + power.cache

/-- Dynamic power of the scratchpad and the cache. -/
def memoryDynamic (power : Power) : Float :=
  power.memoryTotal - power.memoryLeakage

/-- The energy over a time in nanoseconds: power times time, a million times smaller. The
    total covers the datapath and both memories. -/
def energy (power : Power) (runtime : Float) : Energy :=
  let scaled (figure : Float) := figure * runtime / 1e6
  let fu := scaled power.fu
  let reg := scaled power.reg
  let memory := scaled power.memoryTotal
  { fu, reg, memory, total := fu + reg + memory }

/-- The section as an object. -/
def toJson (power : Power) : Json :=
  .obj [("inputs", power.inputs.toJson), ("fu_total", .ofFloat power.fu),
    ("reg_total", .ofFloat power.reg), ("spm_total", .ofFloat power.spm),
    ("cache_total", .ofFloat power.cache), ("total_power", .ofFloat power.total),
    ("acc_spm_total", .ofFloat power.withSpm), ("acc_cache_total", .ofFloat power.withCache)]

end Power

/-- The area of the parts. -/
structure AreaInputs where
  fu : Float
  reg : Float
  spm : Float
  cache : Float
  deriving DecidableEq, Inhabited

namespace AreaInputs

/-- The members of the figures. -/
def members (inputs : AreaInputs) : List (String × Json) :=
  [("fu", .ofFloat inputs.fu), ("reg", .ofFloat inputs.reg), ("spm", .ofFloat inputs.spm),
    ("cache", .ofFloat inputs.cache)]

/-- The figures as a record; one that is missing is zero. -/
def fields : Fields AreaInputs :=
  AreaInputs.mk <$> .optional "fu" Decoder.float 0
    <*> .optional "reg" Decoder.float 0
    <*> .optional "spm" Decoder.float 0
    <*> .optional "cache" Decoder.float 0

end AreaInputs

/-- The area of the parts and its sums. -/
structure Area where
  inputs : AreaInputs
  /-- The area of the datapath: functional units and registers. -/
  total : Float
  /-- The area of the datapath and the scratchpad. -/
  withSpm : Float
  /-- The area of the datapath and the cache. -/
  withCache : Float
  deriving DecidableEq, Inhabited

namespace Area

/-- The section of a run for which no area was supplied. -/
def empty : Area :=
  ⟨⟨0, 0, 0, 0⟩, 0, 0, 0⟩

/-- The sums over the area of the parts. -/
def collect (inputs : AreaInputs) : Area :=
  let total := inputs.fu + inputs.reg
  { inputs, total, withSpm := total + inputs.spm, withCache := total + inputs.cache }

/-- The area of the scratchpad and the cache. -/
def memory (area : Area) : Float :=
  area.inputs.spm + area.inputs.cache

/-- The area of the datapath in square millimetres. -/
def totalMillimetres (area : Area) : Float :=
  area.total / 1e6

/-- The section as an object. -/
def toJson (area : Area) : Json :=
  .obj [("fu_area_um2", .ofFloat area.inputs.fu), ("reg_area_um2", .ofFloat area.inputs.reg),
    ("spm_area_um2", .ofFloat area.inputs.spm), ("cache_area_um2", .ofFloat area.inputs.cache),
    ("total_area_um2", .ofFloat area.total), ("acc_spm_area_um2", .ofFloat area.withSpm),
    ("acc_cache_area_um2", .ofFloat area.withCache)]

end Area

end AccelProfile
