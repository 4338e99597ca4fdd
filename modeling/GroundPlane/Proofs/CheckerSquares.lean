import Mathlib
import GroundPlane.Texture.Basic
import GroundPlane.Proofs.TextureLookup
import GroundPlane.Proofs.Checkerboard

/-!
# The squares of a checkerboard

The side of a square is the side of the image divided by the number of squares asked for, rounded
down to whole texels. The squares then may not reach the end, and the rest is filled with further
ones. So along every row and column there are as many as asked for just if that number divides the
size, and more of them otherwise (`checkerboard_squares_per_side`).
-/

namespace GroundPlane.Texture

/-! ## Runs -/

section

variable {β : Type} [DecidableEq β]

/-- The longest stretches of equal elements. -/
def runs (l : List β) : List (List β) :=
  l.splitBy (· == ·)

theorem runs_replicate {n : Nat} (positive : 1 ≤ n) (b : β) :
    runs (List.replicate n b) = [List.replicate n b] := by
  refine List.splitBy_of_isChain (List.ne_nil_of_length_pos (List.length_replicate ▸ positive)) ?_
  exact List.isChain_replicate_of_rel n (beq_self_eq_true b)

theorem runs_append {l m : List β} (apart : ∀ x ∈ l.getLast?, ∀ y ∈ m.head?, x ≠ y) :
    runs (l ++ m) = runs l ++ runs m :=
  List.splitBy_append fun x hx y hy => beq_false_of_ne (apart x hx y hy)

/-- The first `n` elements of a row of cells, each of them `cell` elements of one color. -/
def cellRow (cell : Nat) (color : Nat → β) (n : Nat) : List β :=
  (List.range n).map fun x => color (x / cell)

variable {cell r : Nat} {color : Nat → β}

omit [DecidableEq β] in
theorem cellRow_add (short : r ≤ cell) (k : Nat) :
    cellRow cell color (k * cell + r) = cellRow cell color (k * cell) ++
      List.replicate r (color k) := by
  rw [cellRow, List.range_add, List.map_append, List.map_map]
  congr 1
  refine List.eq_replicate_iff.2 ⟨by simp, fun b mem => ?_⟩
  obtain ⟨x, hx, rfl⟩ := List.mem_map.1 mem
  have inside : x < cell := (List.mem_range.1 hx).trans_le short
  change color ((k * cell + x) / cell) = color k
  rw [Nat.mul_comm, Nat.mul_add_div (by omega), Nat.div_eq_of_lt inside, Nat.add_zero]

/-- A row of cells, each of another color than the next, has a run for each cell. The last cell may
be cut short. -/
theorem length_runs_cellRow (alternates : ∀ j, color j ≠ color (j + 1)) (positive : 1 ≤ r)
    (short : r ≤ cell) (k : Nat) : (runs (cellRow cell color (k * cell + r))).length = k + 1 := by
  induction k generalizing r with
  | zero =>
    rw [cellRow_add short, Nat.zero_mul]
    exact congrArg List.length (runs_replicate positive _)
  | succ k ih =>
    have full : 1 ≤ cell := positive.trans short
    -- The full cell before ends in another color, so the new cell starts a run of its own.
    have apart : ∀ x ∈ (cellRow cell color ((k + 1) * cell)).getLast?,
        ∀ y ∈ (List.replicate r (color (k + 1))).head?,
        x ≠ y := by
      rw [Nat.succ_mul, cellRow_add le_rfl]
      simp only [List.getLast?_append, List.getLast?_replicate, List.head?_replicate]
      rw [if_neg (by omega), if_neg (by omega)]
      rintro x ⟨⟩ y ⟨⟩
      exact alternates k
    rw [cellRow_add short, runs_append apart, runs_replicate positive, List.length_append,
      Nat.succ_mul, ih full le_rfl]
    rfl

theorem length_runs_cellRow_eq (alternates : ∀ j, color j ≠ color (j + 1)) (wide : 1 ≤ cell)
    {n : Nat} (positive : 1 ≤ n) : (runs (cellRow cell color n)).length = n ⌈/⌉ cell := by
  have cells : n = (n - 1) / cell * cell + ((n - 1) % cell + 1) := by
    have division := Nat.div_add_mod' (n - 1) cell
    omega
  have count : n ⌈/⌉ cell = (n - 1) / cell + 1 := by
    rw [Nat.ceilDiv_eq_add_pred_div, ← Nat.add_div_right _ wide]
    congr 1
    omega
  rw [count]
  nth_rewrite 1 [cells]
  exact length_runs_cellRow alternates (by omega) (Nat.mod_lt _ wide) _

end

/-! ## Counting squares -/

/-- Squares whose side is rounded down are at least as many as asked for, less than twice as many,
and just as many if they fill the side. -/
theorem squares_mem {size cells : Nat} (positive : 1 ≤ cells) (enough : cells ≤ size) :
    let squares := size ⌈/⌉ (size / cells)
    (squares = cells ↔ cells ∣ size) ∧ cells ≤ squares ∧ squares < 2 * cells := by
  intro squares
  have side : 0 < size / cells := Nat.div_pos enough positive
  have reaches (m : Nat) : squares ≤ m ↔ size ≤ size / cells * m := ceilDiv_le_iff_le_mul side
  have inside : size / cells * cells ≤ size := Nat.div_mul_le_self size cells
  have next : size < cells * (size / cells + 1) := Nat.lt_mul_div_succ size positive
  have filled : cells ∣ size ↔ size / cells * cells = size := Nat.dvd_iff_div_mul_eq size cells
  generalize size / cells = c at side reaches inside next filled
  obtain ⟨m, rfl⟩ : ∃ m, cells = m + 1 := ⟨cells - 1, by omega⟩
  have least : m + 1 ≤ squares := by
    by_contra fewer
    have short := (reaches m).1 (by omega)
    rw [Nat.mul_succ] at inside
    omega
  have same : squares = m + 1 ↔ squares ≤ m + 1 := by omega
  refine ⟨?_, least, ?_⟩
  · rw [same, reaches, filled]
    omega
  · have wide : m ≤ c * m := Nat.le_mul_of_pos_left m side
    have most : squares ≤ 2 * m + 1 := (reaches _).2 (by linarith)
    omega

/-! ## Rows and columns -/

/-- The texels of a row, from the left. -/
def texelRow (t : Texture) (y : Nat) : List (List UInt8) :=
  (List.range t.width.toNat).map (t.bytesAt · y)

/-- The texels of a column, from the top. -/
def texelColumn (t : Texture) (x : Nat) : List (List UInt8) :=
  (List.range t.height.toNat).map (t.bytesAt x ·)

/-- The colors of squares one after the other. -/
def stripe (even odd : Texel) (j : Nat) : List UInt8 :=
  (if j % 2 = 0 then even else odd).bytes

variable {even odd : Texel}

theorem stripe_ne_succ (distinct : even ≠ odd) (j : Nat) :
    stripe even odd j ≠ stripe even odd (j + 1) := by
  have bytes : even.bytes ≠ odd.bytes :=
    fun same => distinct (by cases even; cases odd; cases same; rfl)
  unfold stripe
  rcases Nat.mod_two_eq_zero_or_one j with parity | parity
  · rw [if_pos parity, if_neg (by omega)]
    exact bytes
  · rw [if_neg (by omega), if_pos (by omega)]
    exact bytes.symm

section

variable (size cells : UInt32) (even odd : Texel)

theorem bytesAt_checkered {x y : Nat} (hx : x < size.toNat) (hy : y < size.toNat) :
    (checkered size cells even odd).bytesAt x y =
      (checkerTexel (checkerCell size.toNat cells.toNat) even odd x y).bytes := by
  have byte {channel : Nat} (hc : channel < 4) :=
    getElem?_checkerPixels hx hy hc (checkerCell size.toNat cells.toNat) even odd
  rw [bytesAt_eq (checkered size cells even odd) hx]
  refine List.ext_getElem? fun channel => ?_
  rw [List.getElem?_take, List.getElem?_drop, Array.getElem?_toList]
  by_cases hc : channel < 4
  · rw [if_pos hc]
    exact byte hc
  · rw [if_neg hc]
    exact (List.getElem?_eq_none (by simpa [Texel.bytes] using hc)).symm

theorem texelRow_checkered {y : Nat} (hy : y < size.toNat) :
    let cell := checkerCell size.toNat cells.toNat
    (checkered size cells even odd).texelRow y =
      cellRow cell (fun j => stripe even odd (j + y / cell)) size.toNat :=
  List.map_congr_left fun _ hx => bytesAt_checkered size cells even odd (List.mem_range.1 hx) hy

theorem texelColumn_checkered {x : Nat} (hx : x < size.toNat) :
    let cell := checkerCell size.toNat cells.toNat
    (checkered size cells even odd).texelColumn x =
      cellRow cell (fun j => stripe even odd (x / cell + j)) size.toNat :=
  List.map_congr_left fun _ hy => bytesAt_checkered size cells even odd hx (List.mem_range.1 hy)

end

/-- The squares of a checkerboard along every row and column, if it has less than `2 ^ 63` bytes, so
that it is made. There are as many as the squares of a side that is rounded down take to cover the
image: the number asked for if it divides the size, otherwise more, but less than twice as many. -/
theorem checkerboard_squares_per_side {size cells : UInt32} (asked : 1 ≤ cells)
    (enough : cells ≤ size) (distinct : even ≠ odd) :
    let squares := size.toNat ⌈/⌉ (size.toNat / cells.toNat)
    ((checkerboard? size cells even odd).isSome ↔ 4 * size.toNat ^ 2 < 2 ^ 63) ∧
    (∀ t, checkerboard? size cells even odd = some t →
      (∀ y < size.toNat, (t.texelRow y).length = size.toNat ∧
        (runs (t.texelRow y)).length = squares) ∧
      (∀ x < size.toNat, (t.texelColumn x).length = size.toNat ∧
        (runs (t.texelColumn x)).length = squares)) ∧
    (squares = cells.toNat ↔ cells.toNat ∣ size.toNat) ∧
    cells.toNat ≤ squares ∧ squares < 2 * cells.toNat := by
  intro squares
  have hc : 1 ≤ cells.toNat := UInt32.le_iff_toNat_le.1 asked
  have hs : cells.toNat ≤ size.toNat := UInt32.le_iff_toNat_le.1 enough
  have positive : 1 ≤ size := UInt32.le_iff_toNat_le.2 (hc.trans hs)
  have side : 1 ≤ size.toNat / cells.toNat := Nat.div_pos hs hc
  have cell : checkerCell size.toNat cells.toNat = size.toNat / cells.toNat := by
    rw [checkerCell, max_eq_right hc, max_eq_right side]
  have length (color : Nat → List UInt8) :
      (cellRow (size.toNat / cells.toNat) color size.toNat).length = size.toNat := by
    simp [cellRow]
  rw [checkerboard?_eq positive]
  refine ⟨by simp, fun t made => ?_, squares_mem hc hs⟩
  obtain ⟨-, ⟨⟩⟩ := Option.ite_none_right_eq_some.1 made
  constructor
  · intro y hy
    rw [texelRow_checkered size cells even odd hy, cell]
    refine ⟨length _, length_runs_cellRow_eq (fun j => ?_) side (hc.trans hs)⟩
    rw [Nat.add_right_comm]
    exact stripe_ne_succ distinct _
  · intro x hx
    rw [texelColumn_checkered size cells even odd hx, cell]
    refine ⟨length _, length_runs_cellRow_eq (fun j => ?_) side (hc.trans hs)⟩
    exact stripe_ne_succ distinct _

/-- Three squares to seven texels: the squares are two texels wide, and a fourth one is cut
short. -/
theorem checkerboard_squares_per_side_seven :
    let white : Texel := ⟨255, 255, 255, 255⟩
    let black : Texel := ⟨0, 0, 0, 255⟩
    ∃ t, checkerboard? 7 3 white black = some t ∧
      (runs (t.texelRow 6)).length = 4 ∧ (runs (t.texelColumn 2)).length = 4 := by
  intro white black
  have asked : (1 : UInt32) ≤ 3 := by decide
  have enough : (3 : UInt32) ≤ 7 := by decide
  have distinct : white ≠ black := by decide
  have squares : (7 : UInt32).toNat ⌈/⌉ ((7 : UInt32).toNat / (3 : UInt32).toNat) = 4 := rfl
  obtain ⟨made, each, -⟩ := checkerboard_squares_per_side asked enough distinct
  obtain ⟨t, ht⟩ := Option.isSome_iff_exists.1 (made.2 (by decide))
  obtain ⟨rows, columns⟩ := each t ht
  rw [squares] at rows columns
  exact ⟨t, ht, (rows 6 (by decide)).2, (columns 2 (by decide)).2⟩

/-- Two squares to three texels make three squares. -/
theorem checkerboard_has_extra_square :
    let size : UInt32 := 3
    let cells : UInt32 := 2
    let white : Texel := ⟨255, 255, 255, 255⟩
    let black : Texel := ⟨0, 0, 0, 255⟩
    1 ≤ cells ∧ cells ≤ size ∧ white ≠ black ∧
      (checkerboard? size cells white black).map (fun t => (runs (t.texelRow 0)).length) =
        some (cells.toNat + 1) := by
  decide

end GroundPlane.Texture
