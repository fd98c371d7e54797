import AccelProfile.Summary.Basic
/-!
# The digest of a report

A few lines for a reader: cycles, the main bottleneck, the cache, the critical path,
parallelism, power and area.
-/

namespace AccelProfile

/-- A double in a line of text. -/
def displayText (value : Float) : String :=
  String.ofList (Decimal.reportStyle.text value)

/-- A double with a fixed number of digits after the point in a line of text. -/
def placesText (places : Nat) (value : Float) : String :=
  String.ofList (Decimal.fixedText places value)

namespace Summary

/-- The share of the cycles that stalled, in percent. -/
def stallPercent (summary : Summary) : Float :=
  let performance := summary.performance
  if performance.totalCycles = 0 then 0
  else 100 * performance.stallCycles.toFloat / performance.totalCycles.toFloat

/-- The lines of the digest. -/
def digestLines (summary : Summary) : List String :=
  let performance := summary.performance
  let dataflow := summary.dataflow
  ["=== Accelerator Summary: " ++ summary.acceleratorName ++ " ===",
    "Cycles:        " ++ toString performance.totalCycles ++ " total, " ++
      toString performance.stallCycles ++ " stalled (" ++ placesText 1 summary.stallPercent ++
      "%), " ++ toString performance.activeCycles ++ " active",
    "Bottleneck:    " ++ summary.stalls.dominantCause.elim "none" StallCause.name,
    "Cache hits:    " ++ placesText 1 (100 * summary.memory.cacheHitRate) ++ "%",
    "Critical path: " ++ toString dataflow.pathLength ++ " levels, " ++
      toString dataflow.pathInstructions ++ " instructions (" ++ toString dataflow.pathLoads ++
      " load, " ++ toString dataflow.pathStores ++ " store, " ++
      toString dataflow.pathComputes ++ " compute)",
    "ILP:           " ++ placesText 2 dataflow.ilp ++ " (avg parallelism " ++
      placesText 2 dataflow.avgParallelism ++ ", max " ++ toString dataflow.maxReady ++ ")",
    "Power:         " ++ displayText summary.power.total ++ " mW",
    "Area:          " ++ displayText summary.area.totalMillimetres ++ " mm^2"]

/-- The digest: its lines, each with an end of line behind it. -/
def digestText (summary : Summary) : String :=
  String.join (summary.digestLines.map (· ++ "\n"))

end Summary

end AccelProfile
