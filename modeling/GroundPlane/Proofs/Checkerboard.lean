import Mathlib
import GroundPlane.Texture.Basic
import GroundPlane.Proofs.Exact
import GroundPlane.Proofs.TextureLookup

/-!
# Checkerboards

A checkerboard is written byte by byte, and a lookup reads four of them. Where the squares fill the
image, what it finds without rounding is the color of an ideal checkerboard, which has no texels
(`checkerboard_looks_ideal`).
-/

namespace GroundPlane.Texture

/-! ## Texels -/

/-- In rows of equal length, the element at a place of a row. -/
theorem getElem?_flatMap {β γ : Type} {f : β → List γ} {w : Nat} (length : ∀ b, (f b).length = w)
    {l : List β} {i j : Nat} {b : β} (hb : l[i]? = some b) (hj : j < w) :
    (l.flatMap f)[i * w + j]? = (f b)[j]? := by
  induction l generalizing i with
  | nil => cases hb
  | cons c l ih =>
    rw [List.flatMap_cons]
    cases i with
    | zero =>
      cases hb
      rw [Nat.zero_mul, Nat.zero_add, List.getElem?_append_left (by rwa [length])]
    | succ i =>
      have behind : (i + 1) * w + j = (f c).length + (i * w + j) := by
        rw [length, Nat.succ_mul]
        omega
      rw [behind, List.getElem?_append_right (Nat.le_add_right _ _), Nat.add_sub_cancel_left]
      exact ih hb

/-- The texels of a checkerboard stand row by row, with their channels in order. -/
theorem getElem?_checkerPixels {size x y channel : Nat} (hx : x < size) (hy : y < size)
    (hc : channel < 4) (cell : Nat) (even odd : Texel) :
    (checkerPixels size cell even odd)[(y * size + x) * 4 + channel]? =
      (checkerTexel cell even odd x y).bytes[channel]? := by
  have place : (y * size + x) * 4 + channel = y * (size * 4) + (x * 4 + channel) := by ring
  have row (y : Nat) : ((List.range size).flatMap fun x =>
      (checkerTexel cell even odd x y).bytes).length = size * 4 := by
    simp [List.length_flatMap, Texel.bytes]
  rw [← Array.getElem?_toList, toList_checkerPixels, place,
    getElem?_flatMap row (List.getElem?_range hy) (by omega)]
  have texel (x : Nat) : (checkerTexel cell even odd x y).bytes.length = 4 := rfl
  exact getElem?_flatMap texel (List.getElem?_range hx) hc

theorem checkerCell_of_dvd {cells k : Nat} (hc : 1 ≤ cells) (hk : 1 ≤ k) :
    checkerCell (cells * k) cells = k := by
  rw [checkerCell, max_eq_right hc, Nat.mul_div_cancel_left _ hc, max_eq_right hk]

theorem checkerboard?_eq {size : UInt32} (positive : 1 ≤ size) (cells : UInt32) (even odd : Texel) :
    checkerboard? size cells even odd =
      if 4 * size.toNat ^ 2 < 2 ^ 63 then some (checkered size cells even odd) else none := by
  have same : max 1 size = size := if_pos positive
  rw [checkerboard?_eq_ite, same]

theorem texel?_checkered {α : Type} [Scalar α] (size cells : UInt32) (even odd : Texel) {x y : Nat}
    (hx : x < size.toNat) (hy : y < size.toNat) :
    (checkered size cells even odd).texel? x y =
      some ((checkerTexel (checkerCell size.toNat cells.toNat) even odd x y).shares : Vec4 α) := by
  have byte {channel : Nat} (hc : channel < 4) :=
    getElem?_checkerPixels hx hy hc (checkerCell size.toNat cells.toNat) even odd
  have first := byte (show 0 < 4 by decide)
  rw [Nat.add_zero] at first
  simp only [texel?, checkered]
  rw [first, byte (show 1 < 4 by decide), byte (show 2 < 4 by decide), byte (show 3 < 4 by decide)]
  rfl

/-! ## The ideal checkerboard -/

variable {K : Type} [Field K] [LinearOrder K] [FloorRing K]

/-- The color at a point of an ideal checkerboard, which covers the plane with `cells` squares to a
unit. -/
def squareAt (cells : Nat) (even odd : Texel) (uv : Vec2 K) : Texel :=
  if Even (⌊uv.x * cells⌋ + ⌊uv.y * cells⌋) then even else odd

/-- The point of the unit square that repeats at a point of the plane. -/
def unitPoint (uv : Vec2 K) : Vec2 K :=
  ⟨Int.fract uv.x, Int.fract uv.y⟩

variable [IsStrictOrderedRing K]

theorem floor_mul_natCast (u : K) (n : Nat) : ⌊u * n⌋ = ⌊u⌋ * n + ⌊Int.fract u * n⌋ := by
  have parts : u * n = (⌊u⌋ * n : ℤ) + Int.fract u * n := by
    push_cast
    rw [← add_mul, Int.floor_add_fract]
  rw [parts, Int.floor_intCast_add]

/-- With an even number of squares to a unit, the ideal checkerboard repeats after each unit. -/
theorem squareAt_unitPoint {cells : Nat} (paired : Even cells) (even odd : Texel) (uv : Vec2 K) :
    squareAt cells even odd (unitPoint uv) = squareAt cells even odd uv := by
  have whole (m : ℤ) : Even (m * cells) := ((Int.even_coe_nat _).2 paired).mul_left m
  have apart : ⌊uv.x * cells⌋ + ⌊uv.y * cells⌋ =
      (⌊uv.x⌋ * cells + ⌊uv.y⌋ * cells) +
        (⌊Int.fract uv.x * cells⌋ + ⌊Int.fract uv.y * cells⌋) := by
    rw [floor_mul_natCast uv.x, floor_mul_natCast uv.y]
    ring
  refine if_congr ?_ rfl rfl
  rw [apart]
  exact (Int.even_add.trans (iff_true_left ((whole _).add (whole _)))).symm

/-! ## Lookups -/

variable [SquareRoot K]

theorem wrap_eq {n : Nat} (positive : 1 ≤ n) (u : K) : wrap n u = ⌊Int.fract u * n⌋₊ := by
  have nonneg : (0 : K) ≤ Int.fract u * n := mul_nonneg (Int.fract_nonneg u) (Nat.cast_nonneg n)
  have below : ⌊Int.fract u * n⌋₊ < n := by
    rw [Nat.floor_lt nonneg]
    exact mul_lt_of_lt_one_left (Nat.cast_pos.2 positive) (Int.fract_lt_one u)
  change min ⌊Int.fract u * n⌋.toNat (n - 1) = _
  rw [Int.floor_toNat]
  omega

/-- The square that a texel lies in is the one that the coordinate lies in. -/
theorem wrap_div {cells k : Nat} (hc : 1 ≤ cells) (hk : 1 ≤ k) (u : K) :
    wrap (cells * k) u / k = ⌊Int.fract u * cells⌋₊ := by
  have size : 1 ≤ cells * k := Nat.mul_pos hc hk
  -- Rounding down to a texel first and then to a square is rounding down to the square at once.
  rw [wrap_eq size, ← Nat.floor_div_natCast, Nat.cast_mul, ← mul_assoc, mul_div_cancel_right₀]
  exact Nat.cast_ne_zero.2 (by omega)

theorem checkerTexel_wrap {cells k : Nat} (hc : 1 ≤ cells) (hk : 1 ≤ k) (even odd : Texel)
    (uv : Vec2 K) :
    checkerTexel k even odd (wrap (cells * k) uv.x) (wrap (cells * k) uv.y) =
      squareAt cells even odd (unitPoint uv) := by
  have nonneg (u : K) : 0 ≤ Int.fract u * cells :=
    mul_nonneg (Int.fract_nonneg u) (Nat.cast_nonneg cells)
  refine if_congr ?_ rfl rfl
  rw [wrap_div hc hk, wrap_div hc hk, ← Nat.even_iff, ← Int.even_coe_nat, Nat.cast_add,
    Int.natCast_floor_eq_floor (nonneg _), Int.natCast_floor_eq_floor (nonneg _)]
  rfl

theorem nearest?_checkered {size cells : UInt32} {k : Nat} (hc : 1 ≤ cells.toNat) (hk : 1 ≤ k)
    (fills : size.toNat = cells.toNat * k) (even odd : Texel) (uv : Vec2 K) :
    (checkered size cells even odd).nearest? uv =
      some (squareAt cells.toNat even odd (unitPoint uv)).shares := by
  have texels : 1 ≤ size.toNat := fills ▸ Nat.mul_pos hc hk
  change (checkered size cells even odd).texel? (wrap size.toNat uv.x) (wrap size.toNat uv.y) = _
  rw [texel?_checkered _ _ _ _ (wrap_lt texels _) (wrap_lt texels _), fills,
    checkerCell_of_dvd hc hk, checkerTexel_wrap hc hk]

/-- A checkerboard whose squares fill it is made if it has less than `2 ^ 63` bytes, and a lookup
finds the color that the ideal checkerboard has at the point of the unit square. So the number of
texels to a square does not matter, nor do whole units, and with an even number of squares to a side
it is the color that the ideal checkerboard has at the point itself. -/
theorem checkerboard_looks_ideal {size cells : UInt32} {k : Nat} (hc : 1 ≤ cells) (hk : 1 ≤ k)
    (fills : size.toNat = cells.toNat * k) (fits : 4 * size.toNat ^ 2 < 2 ^ 63) (even odd : Texel)
    (uv : Vec2 K) :
    ∃ t, checkerboard? size cells even odd = some t ∧
      t.nearest? uv = some (squareAt cells.toNat even odd (unitPoint uv)).shares ∧
      (∀ (other : UInt32) (j : Nat), 1 ≤ j → other.toNat = cells.toNat * j →
        4 * other.toNat ^ 2 < 2 ^ 63 →
        ∃ t', checkerboard? other cells even odd = some t' ∧ t'.nearest? uv = t.nearest? uv) ∧
      (∀ m n : ℤ, t.nearest? ⟨uv.x + m, uv.y + n⟩ = t.nearest? uv) ∧
      (Even cells.toNat → t.nearest? uv = some (squareAt cells.toNat even odd uv).shares) := by
  have positive : 1 ≤ cells.toNat := UInt32.le_iff_toNat_le.1 hc
  have made {size : UInt32} {k : Nat} (hk : 1 ≤ k) (fills : size.toNat = cells.toNat * k)
      (fits : 4 * size.toNat ^ 2 < 2 ^ 63) :
      checkerboard? size cells even odd = some (checkered size cells even odd) := by
    have texels : 1 ≤ size := UInt32.le_iff_toNat_le.2 (fills ▸ Nat.mul_pos positive hk)
    rw [checkerboard?_eq texels, if_pos fits]
  have look := nearest?_checkered (K := K) positive hk fills even odd
  refine ⟨_, made hk fills fits, look uv, fun other j hj fills' fits' => ?_, fun m n => ?_,
    fun paired => ?_⟩
  · refine ⟨_, made hj fills' fits', ?_⟩
    rw [look, nearest?_checkered positive hj fills']
  · have same : unitPoint ⟨uv.x + m, uv.y + n⟩ = unitPoint uv := by
      simp only [unitPoint, Int.fract_add_intCast]
    rw [look, look, same]
  · rw [look, squareAt_unitPoint paired]

/-- Four squares of three texels to a side, seen outside the unit square. -/
theorem checkerboard_looks_ideal_outside :
    let white : Texel := ⟨255, 255, 255, 255⟩
    let black : Texel := ⟨0, 0, 0, 255⟩
    let uv : Vec2 ℚ := ⟨-1 / 4, 7 / 3⟩
    unitPoint uv = ⟨3 / 4, 1 / 3⟩ ∧ 4 * (12 : UInt32).toNat ^ 2 < 2 ^ 63 ∧
    ∃ t t', checkerboard? 12 4 white black = some t ∧ checkerboard? 20 4 white black = some t' ∧
      t.nearest? uv = some white.shares ∧ t'.nearest? uv = t.nearest? uv ∧
      t.nearest? ⟨uv.x + (2 : ℤ), uv.y + (-1 : ℤ)⟩ = t.nearest? uv ∧
      t.nearest? uv = some (squareAt 4 white black uv).shares := by
  intro white black uv
  have unit : unitPoint uv = ⟨3 / 4, 1 / 3⟩ := by norm_num [unitPoint, uv]
  have square : squareAt (4 : UInt32).toNat white black (unitPoint uv) = white := by
    have column : ⌊(3 / 4 : ℚ) * (4 : Nat)⌋ = 3 := by norm_num
    have row : ⌊(1 / 3 : ℚ) * (4 : Nat)⌋ = 1 := by norm_num
    rw [unit]
    refine if_pos ?_
    change Even (⌊(3 / 4 : ℚ) * (4 : Nat)⌋ + ⌊(1 / 3 : ℚ) * (4 : Nat)⌋)
    rw [column, row]
    decide
  have fills : (12 : UInt32).toNat = (4 : UInt32).toNat * 3 := rfl
  have fits : 4 * (12 : UInt32).toNat ^ 2 < 2 ^ 63 := by decide
  obtain ⟨t, made, ideal, resized, shifted, plane⟩ :=
    checkerboard_looks_ideal (by decide) (by decide) fills fits white black uv
  obtain ⟨t', made', same⟩ := resized 20 5 (by decide) rfl (by decide)
  rw [square] at ideal
  exact ⟨unit, fits, t, t', made, made', ideal, same, shifted 2 (-1), plane (by decide)⟩

/-- Two squares of 759250125 texels to a side fill their image, but it has more bytes than can be
reserved, so that there is nothing to look at. With one texel less to a square it would be made. -/
theorem oversized_checkerboard_unanswered :
    let side : UInt32 := 1518500250
    let white : Texel := ⟨255, 255, 255, 255⟩
    let black : Texel := ⟨0, 0, 0, 255⟩
    side.toNat = (2 : UInt32).toNat * 759250125 ∧ checkerboard? side 2 white black = none ∧
      ∃ t, checkerboard? (side - 2) 2 white black = some t := by
  intro side white black
  refine ⟨by decide, ?_, ?_⟩
  · rw [checkerboard?_eq (by decide), if_neg (by decide)]
  · rw [checkerboard?_eq (by decide), if_pos (by decide)]
    exact ⟨_, rfl⟩

end GroundPlane.Texture
