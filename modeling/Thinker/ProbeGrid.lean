import Thinker.BedMesh
import Thinker.Splice
import Thinker.ZigZag

/-!
# Probe grids

`BedMeshCalibrate` (`bed_mesh.py`) makes the points that a probe visits, zig-zag over a rectangle
or a round bed. A point in a faulty region is replaced by up to four others, and a reference point
outside the mesh comes last. `probe_finalize` folds the probed heights back into a table : it takes
the average of what replaced a point, and finds the rows by comparing neighbours.

Arithmetic is exact, and a distance is compared with a radius by the squares. The texts of the
errors are left out.
-/

set_option linter.unusedSectionVars false

namespace Thinker

variable {K : Type} [Field K] [LinearOrder K] [IsStrictOrderedRing K] [FloorRing K]

/-- The errors of a configuration, which name an option, two regions that overlap, or the index of a
point. -/
inductive CalibrateError where
  | missing (option : String)
  | range (option : String)
  | malformed (option : String)
  /-- "probe_count must be odd for round beds". -/
  | evenProbeCount
  /-- "invalid min/max points". -/
  | invalidMinMax
  /-- "Existing faulty_region overlaps added faulty_region". -/
  | existingOverlaps (existing added : ℕ)
  /-- "Added faulty_region overlaps existing faulty_region". -/
  | addedOverlaps (added existing : ℕ)
  /-- The errors of `_verify_algorithm`. -/
  | algorithm
  /-- "min/max points too close together". -/
  | tooClose
  /-- "relative reference index out of range". -/
  | referenceIndex
  /-- "Cannot probe zero reference position", with the option to check. -/
  | faultyReference (option : String)
  /-- "Unable to generate coordinates for faulty region at index". -/
  | noCoordinates (index : ℕ)
  deriving DecidableEq, Repr

/-- The errors of `probe_finalize`. -/
inductive FinalizeError where
  /-- There is no position. -/
  | noPositions
  /-- "invalid position list size". -/
  | listSize (generated probed : ℕ)
  /-- "point mismatch". -/
  | mismatch
  /-- "Invalid y-axis table length". -/
  | yLength (length : ℕ)
  /-- "incorrect number of points sampled on X". -/
  | evenRow
  /-- "invalid x-axis table length". -/
  | xLength (length : ℕ)
  deriving DecidableEq, Repr

/-- `ZrefMode`. -/
inductive ZrefMode where
  | disabled
  | inMesh
  | probe
  deriving DecidableEq, Repr

/-- The options of `[bed_mesh]`, with their defaults. An algorithm that is not in `ALGOS` is
`direct`. -/
structure CalibrateOptions (K : Type) [Field K] where
  zeroReferencePosition : Option (K × K) := none
  relativeReferenceIndex : Option ℤ := none
  meshRadius : Option K := none
  meshOrigin : K × K := (0, 0)
  roundProbeCount : ℤ := 5
  probeCount : List ℤ := [2, 2]
  meshMin : Option (K × K) := none
  meshMax : Option (K × K) := none
  meshPps : List ℤ := [2, 2]
  algorithm : MeshAlgo := .lagrange
  bicubicTension : K := 1 / 5
  faultyRegionMin : ℕ → Option (K × K) := fun _ => none
  faultyRegionMax : ℕ → Option (K × K) := fun _ => none

/-- A corner of a region and the one opposite. -/
abbrev Region (K : Type) :=
  (K × K) × K × K

/-- What a mesh is made on : a rectangle, or a circle if there is a radius. -/
structure MeshArea (K : Type) [Field K] [LinearOrder K] where
  radius : Option K
  origin : K × K
  meshMin : K × K
  meshMax : K × K
  xCount : ℕ
  yCount : ℕ
  two_le_xCount : 2 ≤ xCount
  two_le_yCount : 2 ≤ yCount
  rectangle : radius = none → meshMin.1 < meshMax.1 ∧ meshMin.2 < meshMax.2
  circle : ∀ r, radius = some r → 0 ≤ r ∧ meshMin = (-r, -r) ∧ meshMax = (r, r) ∧
    xCount = yCount ∧ xCount % 2 = 1

/-- `BedMeshCalibrate`. The ranges of `meshConfig` are set when the probing ends. -/
structure BedMeshCalibrate (K : Type) [Field K] [LinearOrder K] where
  area : MeshArea K
  meshConfig : MeshParams K
  zeroRefPos : Option (K × K)
  relativeReferenceIndex : Option ℕ
  zeroReferenceMode : ZrefMode
  faultyRegions : List (Region K)
  points : List (K × K)
  substitutedIndices : List (ℕ × List (K × K))

namespace BedMeshCalibrate

/-- `isclose`. -/
def isClose (a b relTol absTol : K) : Bool :=
  decide (|a - b| ≤ max (relTol * max |a| |b|) absTol)

/-- `within`. -/
def within (coord minC maxC : K × K) (tol : K) : Bool :=
  decide ((coord.1 ≤ maxC.1 + tol ∧ minC.1 - tol ≤ coord.1) ∧
    coord.2 ≤ maxC.2 + tol ∧ minC.2 - tol ≤ coord.2)

/-! ## Configuration -/

/-- `parse_config_pair`. -/
def parseConfigPair (option : String) (minval : ℕ) (pair : List ℤ) :
    Except CalibrateError { p : ℕ × ℕ // minval ≤ p.1 ∧ minval ≤ p.2 } :=
  let checked (a b : ℤ) : Except CalibrateError { p : ℕ × ℕ // minval ≤ p.1 ∧ minval ≤ p.2 } :=
    if h : (minval : ℤ) ≤ a ∧ (minval : ℤ) ≤ b then .ok ⟨(a.toNat, b.toNat), by omega, by omega⟩
    else .error (.range option)
  match pair with
  | [a, b] => checked a b
  | [a] => checked a a
  | _ => .error (.malformed option)

/-- The area of a round bed. -/
def roundArea (o : CalibrateOptions K) (radius : K) : Except CalibrateError (MeshArea K) :=
  if hr : radius ≤ 0 then .error (.range "mesh_radius")
  else if hcnt : o.roundProbeCount < 3 then .error (.range "round_probe_count")
  else if hodd : o.roundProbeCount % 2 = 0 then .error .evenProbeCount
  else
    let r : K := ⌊radius * 10⌋ / 10
    .ok
      { radius := some r
        origin := o.meshOrigin
        meshMin := (-r, -r)
        meshMax := (r, r)
        xCount := o.roundProbeCount.toNat
        yCount := o.roundProbeCount.toNat
        two_le_xCount := by omega
        two_le_yCount := by omega
        rectangle := nofun
        circle := fun r' hr' => by
          obtain rfl : r = r' := Option.some_inj.1 hr'
          refine ⟨?_, rfl, rfl, rfl, by omega⟩
          have hfloor : (0 : ℤ) ≤ ⌊radius * 10⌋ := Int.floor_nonneg.2 (by linarith)
          have hcast : (0 : K) ≤ ⌊radius * 10⌋ := by exact_mod_cast hfloor
          positivity }

/-- The area of a rectangular bed. -/
def rectArea (o : CalibrateOptions K) : Except CalibrateError (MeshArea K) :=
  (parseConfigPair "probe_count" 2 o.probeCount).bind fun counts =>
    match o.meshMin, o.meshMax with
    | none, _ => .error (.missing "mesh_min")
    | some _, none => .error (.missing "mesh_max")
    | some meshMin, some meshMax =>
      if h : meshMax.1 ≤ meshMin.1 ∨ meshMax.2 ≤ meshMin.2 then .error .invalidMinMax
      else
        .ok
          { radius := none
            origin := (0, 0)
            meshMin := meshMin
            meshMax := meshMax
            xCount := counts.1.1
            yCount := counts.1.2
            two_le_xCount := counts.2.1
            two_le_yCount := counts.2.2
            rectangle := fun _ => by
              rw [not_or, not_le, not_le] at h
              exact h
            circle := nofun }

/-- The corners of a region. -/
def corners (region : Region K) : List (K × K) :=
  let (c1, c3) := region
  [c1, (c1.1, c3.2), c3, (c3.1, c1.2)]

/-- The error about a region that overlaps one of those before. -/
def overlap (regions : List (Region K)) (region : Region K) (i : ℕ) : Option CalibrateError :=
  regions.zipIdx.findSome? fun (prev, j) =>
    if (corners prev).any fun coord => within coord region.1 region.2 0 then
      some (.existingOverlaps (j + 1) i)
    else if (corners region).any fun coord => within coord prev.1 prev.2 0 then
      some (.addedOverlaps i (j + 1))
    else none

/-- The faulty regions from the `i`-th on, at most `n`. -/
def readRegions (o : CalibrateOptions K) :
    ℕ → ℕ → List (Region K) → Except CalibrateError (List (Region K))
  | 0, _, regions => .ok regions
  | n + 1, i, regions =>
    match o.faultyRegionMin i, o.faultyRegionMax i with
    | none, _ => .ok regions
    | some _, none => .error (.missing s!"faulty_region_{i}_max")
    | some s, some e =>
      let region := ((min s.1 e.1, min s.2 e.2), (max s.1 e.1, max s.2 e.2))
      match overlap regions region i with
      | some error => .error error
      | none => readRegions o n (i + 1) (regions ++ [region])

/-- `_init_mesh_config`, and what `__init__` reads before. -/
def initMeshConfig (o : CalibrateOptions K) : Except CalibrateError (BedMeshCalibrate K) :=
  if o.relativeReferenceIndex.any (· < 0) then .error (.range "relative_reference_index")
  else
    (match o.meshRadius with
      | some radius => roundArea o radius
      | none => rectArea o).bind fun area =>
    (parseConfigPair "mesh_pps" 0 o.meshPps).bind fun pps =>
    if o.bicubicTension < 0 ∨ 2 < o.bicubicTension then .error (.range "bicubic_tension")
    else
      (readRegions o 99 1 []).bind fun regions =>
      let params : MeshParams K :=
        { minX := area.meshMin.1
          maxX := area.meshMax.1
          minY := area.meshMin.2
          maxY := area.meshMax.2
          xCount := area.xCount
          yCount := area.yCount
          meshXPps := pps.1.1
          meshYPps := pps.1.2
          algo := o.algorithm
          tension := o.bicubicTension
          two_le_xCount := area.two_le_xCount
          two_le_yCount := area.two_le_yCount }
      match params.verifyAlgorithm with
      | none => .error .algorithm
      | some meshConfig =>
        .ok
          { area := area
            meshConfig := meshConfig
            zeroRefPos := o.zeroReferencePosition
            relativeReferenceIndex :=
              if o.zeroReferencePosition.isSome then none
              else o.relativeReferenceIndex.map Int.toNat
            zeroReferenceMode := .disabled
            faultyRegions := regions
            points := []
            substitutedIndices := [] }

/-! ## Points -/

end BedMeshCalibrate

namespace MeshArea

variable (a : MeshArea K)

/-- A distance, floored down to the next hundredth. -/
def floorDist (lo hi : K) (count : ℕ) : K :=
  ⌊(hi - lo) / (count - 1) * 100⌋ / 100

/-- `x_dist`. -/
def xDist : K :=
  floorDist a.meshMin.1 a.meshMax.1 a.xCount

/-- `y_dist`, as it is checked. -/
def flooredYDist : K :=
  floorDist a.meshMin.2 a.meshMax.2 a.yCount

/-- `y_dist`, which is `x_dist` on a round bed. -/
def yDist : K :=
  if a.radius.isSome then a.xDist else a.flooredYDist

/-- `new_r`. -/
def newRadius : K :=
  (a.xCount / 2 : ℕ) * a.xDist

/-- `min_x` and `min_y`, recalculated for a round bed. -/
def minCorner : K × K :=
  if a.radius.isSome then (-a.newRadius, -a.newRadius) else a.meshMin

/-- `max_x` and `max_y`, recalculated. -/
def maxCorner : K × K :=
  if a.radius.isSome then (a.newRadius, a.newRadius)
  else (a.meshMin.1 + a.xDist * (a.xCount - 1), a.meshMax.2)

/-- The point at a position, if the bed has it. -/
def pointAt (x y : K) : Option (K × K) :=
  match a.radius with
  | none => some (x, y)
  | some r => if x * x + y * y ≤ r * r then some (a.origin.1 + x, a.origin.2 + y) else none

/-- The points of a row. -/
def pointRow (i : ℕ) (posY : K) : List (K × K) :=
  (List.range a.xCount).filterMap fun (j : ℕ) =>
    if i % 2 = 0 then a.pointAt (a.minCorner.1 + j * a.xDist) posY
    else a.pointAt (a.maxCorner.1 - j * a.xDist) posY

/-- The points of `n` rows from row `i`. -/
def pointRows : ℕ → ℕ → K → List (K × K)
  | 0, _, _ => []
  | n + 1, i, posY => a.pointRow i posY ++ pointRows n (i + 1) (posY + a.yDist)

/-- The points of the mesh. -/
def points : List (K × K) :=
  a.pointRows a.yCount 0 a.minCorner.2

/-- Whether a substitute is taken to be within the mesh boundary. -/
def isValid (p : K × K) : Bool :=
  match a.radius with
  | none => BedMeshCalibrate.within p a.minCorner a.maxCorner (1 / 1000000)
  | some r => decide (p.1 * p.1 + p.2 * p.2 ≤ r * r)

end MeshArea

namespace BedMeshCalibrate

variable (c : BedMeshCalibrate K)

/-- What replaces a point of a faulty region, in the direction of its row. -/
def adjCoords (coord : K × K) (isReversed : Bool) : List (K × K) :=
  match c.faultyRegions.find? fun region => within coord region.1 region.2 (1 / 100000) with
  | none => []
  | some (minC, maxC) =>
    if isReversed then
      [(maxC.1, coord.2), (coord.1, minC.2), (coord.1, maxC.2), (minC.1, coord.2)]
    else [(minC.1, coord.2), (coord.1, minC.2), (coord.1, maxC.2), (maxC.1, coord.2)]

/-- The loop over the points : the last `y`, the direction, and what was substituted. -/
def substitute (st : K × Bool × List (ℕ × List (K × K))) (e : (K × K) × ℕ) :
    Except CalibrateError (K × Bool × List (ℕ × List (K × K))) :=
  let (lastY, isReversed, substituted) := st
  let (coord, i) := e
  let isReversed := if isClose coord.2 lastY (1 / 1000000000) 0 then isReversed else !isReversed
  let adjCoords := c.adjCoords coord isReversed
  let validCoords := adjCoords.filter c.area.isValid
  if adjCoords.isEmpty then .ok (coord.2, isReversed, substituted)
  else if validCoords.isEmpty then .error (.noCoordinates i)
  else .ok (coord.2, isReversed, substituted ++ [(i, validCoords)])

/-- The zero reference position, which may be one of the points. -/
def zeroReference (points : List (K × K)) : Except CalibrateError (Option (K × K)) :=
  match c.zeroRefPos, c.relativeReferenceIndex with
  | some p, _ => .ok (some p)
  | none, none => .ok none
  | none, some rri =>
    match points[rri]? with
    | none => .error .referenceIndex
    | some p => .ok (some p)

/-- `zero_reference_mode`. -/
def referenceMode (zeroRefPos : Option (K × K)) (manual : Bool) : ZrefMode :=
  match zeroRefPos with
  | none => .disabled
  | some p =>
    if manual then .disabled
    else if within p c.area.meshMin c.area.meshMax 0 then .inMesh
    else .probe

/-- Whether the reference is to be probed in a faulty region. -/
def isFaultyReference : Bool :=
  c.zeroReferenceMode == .probe && c.faultyRegions.any fun region =>
    c.zeroRefPos.any fun p => within p region.1 region.2 0

/-- `_generate_points`. -/
def generatePoints (manual : Bool) : Except CalibrateError (BedMeshCalibrate K) :=
  if c.area.xDist < 1 ∨ c.area.flooredYDist < 1 then .error .tooClose
  else
    let points := c.area.points
    (c.zeroReference points).bind fun zeroRefPos =>
      let c := { c with
        points := points
        zeroRefPos := zeroRefPos
        zeroReferenceMode := c.referenceMode zeroRefPos manual }
      if c.faultyRegions.isEmpty then .ok c
      else if c.isFaultyReference then
        .error (.faultyReference <|
          if c.relativeReferenceIndex.isSome then "relative_reference_index"
          else "zero_reference_position")
      else if manual then .ok { c with substitutedIndices := [] }
      else
        (points.zipIdx.foldlM c.substitute (points.head?.elim 0 Prod.snd, false, [])).map fun st =>
          { c with substitutedIndices := st.2.2 }

/-- The points after `__init__`, and after some calibrations with the method "manual" or another. -/
def calibrate (o : CalibrateOptions K) (manual : List Bool) :
    Except CalibrateError (BedMeshCalibrate K) :=
  (initMeshConfig o).bind fun c => (false :: manual).foldlM generatePoints c

/-- `_get_adjusted_points`. -/
def getAdjustedPoints : List (K × K) :=
  let adjPts :=
    if c.substitutedIndices.isEmpty then c.points
    else
      let st := c.substitutedIndices.foldl (Splice.expandStep c.points) ([], 0)
      st.1 ++ c.points.drop st.2
  match c.zeroReferenceMode, c.zeroRefPos with
  | .probe, some p => adjPts ++ [p]
  | _, _ => adjPts

/-! ## Probed heights -/

/-- `round(x, 2)`. -/
def roundHundredth (x : K) : K :=
  roundHalfEven (x * 100) / 100

/-- A position with rounded X and Y. -/
def roundXY (p : K × K × K) : K × K × K :=
  (roundHundredth p.1, roundHundredth p.2.1, p.2.2)

/-- The least element. -/
def least (first : K) (l : List K) : K :=
  l.foldl min first

/-- The greatest element. -/
def greatest (first : K) (l : List K) : K :=
  l.foldl max first

/-- The parameters of the mesh, with the ranges of the positions. -/
def meshParams (offsets : K × K × K) (first : K × K × K) (positions : List (K × K × K)) :
    MeshParams K :=
  { c.meshConfig with
    minX := least first.1 (positions.map (·.1)) + offsets.1
    maxX := greatest first.1 (positions.map (·.1)) + offsets.1
    minY := least first.2.1 (positions.map (·.2.1)) + offsets.2.1
    maxY := greatest first.2.1 (positions.map (·.2.1)) + offsets.2.1 }

/-- The average of the heights of some positions. -/
def avgZ (positions : List (K × K × K)) (count : ℕ) : K :=
  (positions.map (·.2.2)).sum / count

/-- A generated point less the offset, with the average height of what replaced it. -/
def correctedPoint (offsets : K × K × K) (i : ℕ) (pts : List (K × K))
    (positions : List (K × K × K)) : K × K × K :=
  let p := c.points.getD i (0, 0)
  (p.1 - offsets.1, p.2 - offsets.2.1, avgZ positions pts.length)

/-- The positions with the generated points in place of what was substituted. -/
def correctedPoints (offsets : K × K × K) (positions : List (K × K × K)) : List (K × K × K) :=
  let st := c.substitutedIndices.foldl
    (Splice.collapseStep (c.correctedPoint offsets) positions) ([], 0, 0)
  st.1 ++ positions.drop st.2.2

/-- Whether a position is that of a generated point. -/
def isMatch (offsets : K × K × K) (e : (K × K) × K × K × K) : Bool :=
  isClose (e.1.1 - offsets.1) e.2.1 (1 / 1000000000) (1 / 10) &&
    isClose (e.1.2 - offsets.2.1) e.2.2.1 (1 / 1000000000) (1 / 10)

/-- The positions, one for each generated point. -/
def correctPositions (offsets : K × K × K) (positions : List (K × K × K)) :
    Except FinalizeError (List (K × K × K)) :=
  if c.substitutedIndices.isEmpty then .ok positions
  else
    let corrected := c.correctedPoints offsets positions
    if c.points.length ≠ corrected.length then
      .error (.listSize c.points.length corrected.length)
    else if (c.points.zip corrected).all (isMatch offsets) then .ok corrected
    else .error .mismatch

/-- Whether `y` has changed. -/
def yChanged (pos prevPos : K × K × K) : Bool :=
  !isClose pos.2.1 prevPos.2.1 (1 / 1000000000) (1 / 10)

/-- Whether the probing went in the positive direction. -/
def isForward (pos prevPos : K × K × K) : Bool :=
  decide (prevPos.1 < pos.1)

/-- `probed_matrix`, with the checks of its size. -/
def probedMatrix (zOffset : K) (positions : List (K × K × K)) : Except FinalizeError (Grid K) :=
  let matrix := ZigZag.rows yChanged isForward (fun pos => pos.2.2 - zOffset) positions
  if matrix.length ≠ c.area.yCount then .error (.yLength matrix.length)
  else if c.area.radius.isSome && matrix.any fun row => row.length % 2 = 0 then .error .evenRow
  else
    let matrix :=
      if c.area.radius.isSome then
        matrix.map fun row => ZigZag.pad ((c.area.xCount - row.length) / 2) row
      else matrix
    if matrix.any fun row => row.length ≠ c.area.xCount then .error (.xLength matrix.length)
    else .ok matrix

/-- `probe_finalize`, up to the parameters and the table that `ZMesh` gets. -/
def probeFinalize (offsets : K × K × K) (results : List (K × K × K)) :
    Except FinalizeError (MeshParams K × Grid K) :=
  let positions := results.map roundXY
  let probed := c.zeroReferenceMode = .probe
  match if probed then positions.getLast? else some (0, 0, offsets.2.2) with
  | none => .error .noPositions
  | some refPos =>
    let positions := if probed then positions.dropLast else positions
    match positions with
    | [] => .error .noPositions
    | first :: rest =>
      (c.correctPositions offsets (first :: rest)).bind fun corrected =>
        (c.probedMatrix refPos.2.2 corrected).map fun matrix =>
          (c.meshParams offsets first rest, matrix)

end BedMeshCalibrate

end Thinker
