import TexFigure.Chart.Basic
import TexFigure.Expression.Compile
import TexFigure.Table.Points
/-!
# Traces

What a series leaves in a plane chart. A curve is sampled at equal steps and cut where it has no
finite value. A series whose rows are a file, whose expression does not compile, or which is a
surface leaves nothing.
-/

namespace TexFigure.Chart

/-- A point of the chart, in the units of its axes. -/
abbrev Sample := Float × Float

/-- Cut a list into its runs of members with a property: the run at the front, which may be
empty, and the others. -/
def cutRuns {α : Type} (p : α → Bool) : List α → List α × List (List α)
  | [] => ([], [])
  | a :: rest =>
    let (front, later) := cutRuns p rest
    if p a then (a :: front, later)
    else ([], if front.isEmpty then later else front :: later)

/-- The runs of members with a property. -/
def runs {α : Type} (p : α → Bool) (members : List α) : List (List α) :=
  let (front, later) := cutRuns p members
  if front.isEmpty then later else front :: later

/-- The neighbours in a list, two by two. -/
def adjacent {α : Type} (members : List α) : List (α × α) := members.zip (members.drop 1)

/-- The `i`-th of `n` points at equal steps over a domain. -/
def step (domain : Domain) (n i : Nat) : Float :=
  domain.1 + (domain.2 - domain.1) * Float.ofNat i / Float.ofNat (n - 1)

/-- The number of samples of a curve, from two to a thousand. -/
def curveSamples (samples : Nat) : Nat := min (max samples 2) 1000

/-- The samples of a function, finite or not. -/
def sampleAll (f : Float → Float) (domain : Domain) (samples : Nat) : List Sample :=
  let n := curveSamples samples
  (List.range n).map fun i => (step domain n i, f (step domain n i))

/-- The segments of a curve: its runs of samples with a finite value. -/
def sampleCurve (f : Float → Float) (domain : Domain) (samples : Nat) : List (List Sample) :=
  runs (fun sample => sample.2.isFinite) (sampleAll f domain samples)

/-- What a series leaves in a plane chart. -/
inductive Trace
  | curve (segments : List (List Sample))
  | scatter (points : List Sample)
  | bars (points : List Sample)
  | area (points : List Sample)

namespace Trace

/-- The points of a trace. -/
def points : Trace → List Sample
  | curve segments => segments.flatten
  | scatter points | bars points | area points => points

/-- Whether a trace consists of bars. -/
def isBars : Trace → Bool
  | bars _ => true
  | _ => false

/-- Whether a trace stands on the zero line. -/
def standsOnZero : Trace → Bool
  | bars _ | area _ => true
  | _ => false

/-- The trace of rows of data. -/
def ofPoints (points : List Sample) : DataType → Trace
  | .line => curve [points]
  | .scatter => scatter points
  | .bar => bars points
  | .area => area points

/-- The trace of a series. -/
def ofKind? : Kind → Option Trace
  | .curve c =>
    match Expression.compile c.expression with
    | .ok expression =>
      some (curve (sampleCurve (fun x => expression.eval x 0.0) c.domain c.samples))
    | .error _ => none
  | .data d =>
    if Table.isFileReference d.rows then none
    else some (ofPoints (Table.points d.rows d.xColumn d.yColumn d.hasHeader) d.dataType)
  | .surface _ => none

end Trace

end TexFigure.Chart
