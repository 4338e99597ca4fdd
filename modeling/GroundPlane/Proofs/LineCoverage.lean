import Mathlib
import GroundPlane.Proofs.DepthRange

/-!
# The coverage of lines

Without rounding, the alpha of a pattern falls off linearly with the distance from the nearest line,
over the extent of a pixel. It is given by that distance alone, so it is the same about every line,
on both sides of it, and for the lines in both directions (`pattern_covers_lines`).
-/

namespace GroundPlane.Grid

variable {K : Type} [Field K] [LinearOrder K] [FloorRing K] [SquareRoot K]

/-- The extent of a pixel on the ground, where lines are a unit apart. -/
def footprint (positions : Patch (Vec3 K)) (scale : K) : Vec2 K :=
  (positions.map fun p => (⟨p.x, p.z⟩ : Vec2 K) * scale).width

/-- How many pixels there are from a coordinate to the nearest line. -/
def offset (coords : Patch K) (scale : K) : K :=
  lineDistance (coords.here * scale) / (coords.map (· * scale)).width

theorem pattern_alpha_eq (positions : Patch (Vec3 K)) (scale : K) (style : Style K) :
    (pattern positions scale style).w =
      1 - min (min (offset (positions.map Vec3.x) scale) (offset (positions.map Vec3.z) scale)) 1 :=
  rfl

variable [IsStrictOrderedRing K]

/-! ## The nearest line -/

/-- The two shifts by a half turn the integer part of a coordinate into the nearest integer. -/
theorem lineDistance_eq (c : K) : lineDistance c = |c - round c| := by
  have half : (0.5 : K) = 1 / 2 := by norm_num
  have floor : ⌊c - 0.5⌋ = round c - 1 := by
    rw [round_eq, ← Int.floor_sub_one, half]
    congr 1
    linarith
  change |c - 0.5 - ⌊c - 0.5⌋ - 0.5| = |c - round c|
  rw [floor, half]
  congr 1
  push_cast
  linarith

theorem lineDistance_le (c : K) (n : ℤ) : lineDistance c ≤ |c - n| := by
  rw [lineDistance_eq]
  exact round_le c n

theorem lineDistance_lt_iff {c w : K} : lineDistance c < w ↔ ∃ n : ℤ, |c - n| < w := by
  constructor
  · intro near
    exact ⟨round c, lineDistance_eq c ▸ near⟩
  · rintro ⟨n, near⟩
    exact (lineDistance_le c n).trans_lt near

theorem lineDistance_nonpos_iff {c : K} : lineDistance c ≤ 0 ↔ ∃ n : ℤ, c = n := by
  constructor
  · intro on_line
    rw [lineDistance_eq] at on_line
    exact ⟨round c, sub_eq_zero.1 (abs_nonpos_iff.1 on_line)⟩
  · rintro ⟨n, rfl⟩
    refine (lineDistance_le _ n).trans ?_
    rw [sub_self, abs_zero]

theorem lineDistance_add_intCast (c : K) (n : ℤ) : lineDistance (c + n) = lineDistance c := by
  rw [lineDistance_eq, lineDistance_eq, round_add_intCast, Int.cast_add, add_sub_add_right_eq_sub]

/-- Halfway between two lines the nearest one changes sides, but not the distance. -/
theorem lineDistance_neg (c : K) : lineDistance (-c) = lineDistance c := by
  have le (c : K) : lineDistance (-c) ≤ lineDistance c := by
    refine (lineDistance_le (-c) (-round c)).trans_eq ?_
    rw [lineDistance_eq, Int.cast_neg, neg_sub_neg, abs_sub_comm]
  apply (le c).antisymm
  have back := le (-c)
  rwa [neg_neg] at back

/-! ## Offsets -/

theorem offset_translate {scale : K} (lines : scale ≠ 0) (coords : Patch K) (n : ℤ) :
    offset (coords.map (· + n / scale)) scale = offset coords scale := by
  have moved (c : K) : (c + n / scale) * scale = c * scale + n := by
    rw [add_mul, div_mul_cancel₀ _ lines]
  change lineDistance ((coords.here + n / scale) * scale) /
      (|(coords.right + n / scale) * scale - (coords.here + n / scale) * scale| +
        |(coords.below + n / scale) * scale - (coords.here + n / scale) * scale|) = _
  simp only [moved, lineDistance_add_intCast, add_sub_add_right_eq_sub]
  rfl

theorem offset_neg (coords : Patch K) (scale : K) :
    offset (coords.map Neg.neg) scale = offset coords scale := by
  change lineDistance (-coords.here * scale) /
      (|-coords.right * scale - -coords.here * scale| +
        |-coords.below * scale - -coords.here * scale|) = _
  simp only [neg_mul, lineDistance_neg, neg_sub_neg, abs_sub_comm (coords.here * scale)]
  rfl

theorem offset_nonpos_iff {coords : Patch K} {scale : K}
    (extent : 0 < (coords.map (· * scale)).width) :
    offset coords scale ≤ 0 ↔ ∃ n : ℤ, coords.here * scale = n := by
  rw [offset, div_le_iff₀ extent, zero_mul, lineDistance_nonpos_iff]

theorem offset_lt_one_iff {coords : Patch K} {scale : K}
    (extent : 0 < (coords.map (· * scale)).width) :
    offset coords scale < 1 ↔ ∃ n :
    ℤ, |coords.here * scale - n| < (coords.map (· * scale)).width := by
  rw [offset, div_lt_one extent, lineDistance_lt_iff]

/-! ## Alpha -/

theorem one_sub_min_one (a : K) : 1 - min a 1 = max 0 (1 - a) := by
  rw [← max_sub_sub_left, sub_self, max_comm]

theorem pattern_alpha_eq_one_iff (positions : Patch (Vec3 K)) (scale : K) (style : Style K) :
    (pattern positions scale style).w = 1 ↔
      offset (positions.map Vec3.x) scale ≤ 0 ∨ offset (positions.map Vec3.z) scale ≤ 0 := by
  rw [← (pattern_alpha positions scale style).2.ge_iff_eq, pattern_alpha_eq, le_sub_self_iff,
    min_le_iff, min_le_iff]
  exact or_iff_left (not_le.2 zero_lt_one)

theorem pattern_alpha_pos_iff (positions : Patch (Vec3 K)) (scale : K) (style : Style K) :
    0 < (pattern positions scale style).w ↔
      offset (positions.map Vec3.x) scale < 1 ∨ offset (positions.map Vec3.z) scale < 1 := by
  rw [pattern_alpha_eq, sub_pos, min_lt_iff, min_lt_iff]
  exact or_iff_left (lt_irrefl 1)

theorem scale_ne_zero_of_footprint {positions : Patch (Vec3 K)} {scale : K}
    (wide : 0 < (footprint positions scale).x) : scale ≠ 0 := by
  rintro rfl
  change 0 < |positions.right.x * 0 - positions.here.x * 0| + |positions.below.x * 0 -
    positions.here.x * 0| at wide
  simp at wide

/-- Let a pixel have some extent on the ground in both directions. Then its alpha is one less the
smaller distance from a line, in these extents, or zero where the distance is more than one of them.
So it is one exactly on the lines and positive within one extent of them, and it stays the same if
the ground is moved by a number of lines, mirrored, or turned so that the lines of both directions
trade places. -/
theorem pattern_covers_lines (positions : Patch (Vec3 K)) (scale : K) (style : Style K)
    (wide : 0 < (footprint positions scale).x) (deep : 0 < (footprint positions scale).y) :
    let alpha (positions : Patch (Vec3 K)) := (pattern positions scale style).w
    let extent := footprint positions scale
    let x := positions.here.x * scale
    let z := positions.here.z * scale
    alpha positions = max 0 (1 - min (|x - round x| / extent.x) (|z - round z| / extent.y)) ∧
      (alpha positions = 1 ↔ (∃ n : ℤ, x = n) ∨ ∃ n : ℤ, z = n) ∧
      (0 < alpha positions ↔ (∃ n : ℤ, |x - n| < extent.x) ∨ ∃ n : ℤ, |z - n| < extent.y) ∧
      (∀ i j : ℤ,
        alpha (positions.map fun p => ⟨p.x + i / scale, p.y, p.z + j / scale⟩) = alpha positions) ∧
      alpha (positions.map fun p => { p with x := -p.x }) = alpha positions ∧
      alpha (positions.map fun p => { p with z := -p.z }) = alpha positions ∧
      alpha (positions.map fun p => ⟨p.z, p.y, p.x⟩) = alpha positions := by
  intro alpha extent x z
  have lines : scale ≠ 0 := scale_ne_zero_of_footprint wide
  have hx : 0 < ((positions.map Vec3.x).map (· * scale)).width := wide
  have hz : 0 < ((positions.map Vec3.z).map (· * scale)).width := deep
  have same {positions' : Patch (Vec3 K)}
      (sameX : offset (positions'.map Vec3.x) scale = offset (positions.map Vec3.x) scale)
      (sameZ : offset (positions'.map Vec3.z) scale = offset (positions.map Vec3.z) scale) :
      alpha positions' = alpha positions :=
    congrArg₂ (fun a b => 1 - min (min a b) 1) sameX sameZ
  refine ⟨?_, ?_, ?_, fun i j => ?_, ?_, ?_, ?_⟩
  · rw [← lineDistance_eq, ← lineDistance_eq, ← one_sub_min_one]
    rfl
  · exact (pattern_alpha_eq_one_iff positions scale style).trans
      (or_congr (offset_nonpos_iff hx) (offset_nonpos_iff hz))
  · exact (pattern_alpha_pos_iff positions scale style).trans
      (or_congr (offset_lt_one_iff hx) (offset_lt_one_iff hz))
  · exact same (offset_translate lines (positions.map Vec3.x) i)
      (offset_translate lines (positions.map Vec3.z) j)
  · exact same (offset_neg (positions.map Vec3.x) scale) rfl
  · exact same rfl (offset_neg (positions.map Vec3.z) scale)
  · exact congrArg (fun a => 1 - min a 1) (min_comm _ _)

/-- A pixel on the side of negative `x`, halfway between two lines one way and near a line the other
way, and seven lines further one way and three the other. -/
theorem pattern_covers_lines_halfway :
    let positions : Patch (Vec3 ℚ) := ⟨⟨-1/4, 0, 3/100⟩, ⟨-23/100, 0, 3/100⟩, ⟨-1/4, 0, 8/100⟩⟩
    let moved : Patch (Vec3 ℚ) :=
      positions.map fun p => ⟨p.x + (-7 : ℤ) / 10, p.y, p.z + (3 : ℤ) / 10⟩
    let style : Style ℚ := ⟨10, 1, 0, 1/10, 1/2⟩
    let x : ℚ := -1/4 * 10
    let z : ℚ := 3/100 * 10
    footprint positions 10 = ⟨1/5, 1/2⟩ ∧ (pattern positions 10 style).w = 2/5 ∧
      max 0 (1 - min (|x - round x| / (1/5)) (|z - round z| / (1/2))) = 2/5 ∧
      (pattern moved 10 style).w = 2/5 := by
  intro positions moved style x z
  have extent : footprint positions 10 = ⟨1/5, 1/2⟩ := by decide +kernel
  have alpha : (pattern positions 10 style).w = 2/5 := by decide +kernel
  have covers := pattern_covers_lines positions 10 style (by decide +kernel) (by decide +kernel)
  refine ⟨extent, alpha, ?_, (covers.2.2.2.1 (-7) 3).trans alpha⟩
  rw [extent] at covers
  exact covers.1.symm.trans alpha

end GroundPlane.Grid
