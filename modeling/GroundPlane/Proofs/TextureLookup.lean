import Mathlib
import GroundPlane.Scalar.Single
import GroundPlane.Texture.Basic
import GroundPlane.Proofs.RoundingOrder

/-!
# Sizes of images and lookups in them

An image has four bytes for each texel. Bytes are taken as an image just if their number is right,
but the right number is only found while it fits a machine word (`sized_buffers_accepted`). Every
image that is made has the right number of bytes, so that a lookup never leaves them, not even for a
coordinate that is infinite or NaN (`lookup_stays_inside`).
-/

namespace GroundPlane

/-! ## Bytes as shares -/

open SinglePrecision

namespace Texel

/-- The channels of a texel as shares of the largest byte. -/
def shares {α : Type} [Scalar α] (p : Texel) : Vec4 α :=
  ⟨p.r.toNat / 255.0, p.g.toNat / 255.0, p.b.toNat / 255.0, p.a.toNat / 255.0⟩

theorem shares_mem (p : Texel) : ∀ c ∈ (p.shares : Vec4 Float32).toList, 0 ≤ c ∧ c ≤ 1 := by
  have share (b : UInt8) : 0 ≤ (b.toNat : Float32) / 255.0 ∧ (b.toNat : Float32) / 255.0 ≤ 1 := by
    have zero : (0 : Float32) = (0 : Nat) := by decide
    have largest : (255.0 : Float32) = (255 : Nat) := by decide
    have small : b.toNat ≤ 255 := Nat.le_of_lt_succ b.toNat_lt
    refine share_mem ?_ ?_ (by decide) rfl
    · rw [zero]
      exact natCast_le_natCast (Nat.zero_le _) (by omega)
    · rw [largest]
      exact natCast_le_natCast small (by decide)
  simp [shares, Vec4.toList, share]

end Texel

namespace Texture

/-! ## Sizes -/

/-- Four bytes for each texel, in the arithmetic of machine words. -/
def byteCount (width height : UInt32) : UInt64 :=
  width.toUInt64 * height.toUInt64 * 4

theorem toNat_byteCount (width height : UInt32) :
    (byteCount width height).toNat = 4 * width.toNat * height.toNat % UInt64.size := by
  simp only [byteCount, UInt64.toNat_mul, UInt32.toNat_toUInt64]
  rw [Nat.mod_mul_mod]
  congr 1
  change width.toNat * height.toNat * 4 = _
  ring

/-- Machine words count right just if the number of bytes fits one. -/
theorem toNat_byteCount_eq_iff {width height : UInt32} :
    (byteCount width height).toNat = 4 * width.toNat * height.toNat ↔
      4 * width.toNat * height.toNat < UInt64.size := by
  rw [toNat_byteCount]
  exact Nat.mod_eq_iff_lt (by decide)

/-- Bytes are judged by what machine words count, as long as they count right. -/
theorem ofPixels?_eq (width height : UInt32) (pixels : Array UInt8) :
    ofPixels? width height pixels =
      if ¬ (0 < width ∧ 0 < height) then some (.error .zeroSize)
      else if (byteCount width height).toNat ≠ 4 * width.toNat * height.toNat then none
      else if pixels.size ≠ (byteCount width height).toNat then
        some (.error (.wrongLength width height (byteCount width height).toNat pixels.size))
      else some (.ok { width, height, pixels }) := by
  have empty : width = 0 ∨ height = 0 ↔ ¬ (0 < width ∧ 0 < height) := by
    rw [UInt32.pos_iff_ne_zero, UInt32.pos_iff_ne_zero]
    tauto
  have count : width.toNat * height.toNat * 4 = 4 * width.toNat * height.toNat := by ring
  simp only [ofPixels?, count, empty, ← not_lt, ← toNat_byteCount_eq_iff]
  split
  next => rfl
  next =>
    split
    next => rfl
    next counted => rw [not_not.1 counted]

theorem ofPixels?_eq_ok_iff {width height : UInt32} {pixels : Array UInt8} {t : Texture} :
    ofPixels? width height pixels = some (.ok t) ↔
      0 < width ∧ 0 < height ∧ pixels.size = 4 * width.toNat * height.toNat ∧
      pixels.size < UInt64.size ∧
        t = ⟨width, height, pixels⟩ := by
  have fits : (byteCount width height).toNat = 4 * width.toNat * height.toNat ↔ _ :=
    toNat_byteCount_eq_iff
  rw [ofPixels?_eq]
  grind

/-- The bytes of an image are accepted just if it has texels and there are four bytes for each, no
more than a machine word counts, and the image is then made of them. They are refused if there is no
texel, or if their number is another one than machine words count rightly. Where machine words count
wrong, there is no answer. -/
theorem sized_buffers_accepted (width height : UInt32) (pixels : Array UInt8) :
    let needed := 4 * width.toNat * height.toNat
    (∀ t : Texture, ofPixels? width height pixels = some (.ok t) ↔
      0 < width ∧ 0 < height ∧ pixels.size = needed ∧ pixels.size < UInt64.size ∧
      t = ⟨width, height, pixels⟩) ∧
    (∀ e : TextureError, ofPixels? width height pixels = some (.error e) ↔
      (width = 0 ∨ height = 0) ∧ e = .zeroSize ∨
      0 < width ∧ 0 < height ∧ pixels.size ≠ needed ∧ (byteCount width height).toNat = needed ∧
        e = .wrongLength width height needed pixels.size) ∧
    (ofPixels? width height pixels = none ↔
      0 < width ∧ 0 < height ∧ (byteCount width height).toNat ≠ needed) := by
  refine ⟨fun t => ofPixels?_eq_ok_iff, fun e => ?_, ?_⟩
  · rw [ofPixels?_eq]
    grind
  · rw [ofPixels?_eq]
    grind

/-- An image whose bytes are more than a machine word counts gets no answer, although it is refused
by its size: in machine words it needs as many bytes as there are, none at all. -/
theorem oversized_image_unanswered :
    let side : UInt32 := 0x80000000
    let pixels : Array UInt8 := #[]
    pixels.size ≠ 4 * side.toNat * side.toNat ∧ ofPixels? side side pixels = none ∧
      (byteCount side side).toNat = pixels.size := by
  decide

/-- The image has texels, and four bytes for each. -/
structure WellSized (t : Texture) : Prop where
  width_pos : 1 ≤ t.width.toNat
  height_pos : 1 ≤ t.height.toNat
  size_pixels : t.pixels.size = 4 * t.width.toNat * t.height.toNat

/-- The ways in which images are made. -/
inductive IsMade : Texture → Prop
  | ofPixels {width height : UInt32} {pixels : Array UInt8} {t : Texture} :
      ofPixels? width height pixels = some (.ok t) → IsMade t
  | white : IsMade white
  | checkerboard {size cells : UInt32} {even odd : Texel} {t : Texture} :
      checkerboard? size cells even odd = some t → IsMade t

/-! ## The loop of a checkerboard -/

/-- A loop whose rounds each append something appends it all, in order. -/
theorem toList_foldl_append {β : Type} {g : Array UInt8 → β → Array UInt8} {f : β → List UInt8}
    (appends : ∀ pixels b, (g pixels b).toList = pixels.toList ++ f b) (l : List β)
    (pixels : Array UInt8) : (l.foldl g pixels).toList = pixels.toList ++ l.flatMap f := by
  induction l generalizing pixels with
  | nil => exact (List.append_nil _).symm
  | cons b l ih => rw [List.foldl_cons, ih, appends, List.flatMap_cons, List.append_assoc]

/-- The loop writes row after row, and each row texel after texel. -/
theorem toList_checkerPixels (size cell : Nat) (even odd : Texel) :
    (checkerPixels size cell even odd).toList =
      (List.range size).flatMap fun y =>
        (List.range size).flatMap fun x => (checkerTexel cell even odd x y).bytes := by
  simp only [checkerPixels, List.forIn_pure_yield_eq_foldl, pure_bind, bind_pure, Id.run_pure]
  refine toList_foldl_append (fun pixels y => ?_) (List.range size) #[]
  refine toList_foldl_append (fun pixels x => ?_) (List.range size) pixels
  exact Array.toList_appendList

theorem size_checkerPixels (size cell : Nat) (even odd : Texel) :
    (checkerPixels size cell even odd).size = 4 * size * size := by
  rw [← Array.length_toList, toList_checkerPixels]
  simp [List.length_flatMap, Texel.bytes]
  ring

/-- The image of a checkerboard, however many bytes it has. -/
def checkered (size cells : UInt32) (even odd : Texel) : Texture where
  width := size
  height := size
  pixels := checkerPixels size.toNat (checkerCell size.toNat cells.toNat) even odd

/-- A checkerboard is made just if it has less than `2 ^ 63` bytes. -/
theorem checkerboard?_eq_ite (size cells : UInt32) (even odd : Texel) :
    checkerboard? size cells even odd =
      if 4 * (max 1 size).toNat ^ 2 < 2 ^ 63 then some (checkered (max 1 size) cells even odd)
      else none := by
  have count : (max 1 size).toNat * (max 1 size).toNat * 4 = 4 * (max 1 size).toNat ^ 2 := by ring
  simp only [checkerboard?, count, byteLimit]
  split
  next large => rw [if_neg (by omega)]
  next small => rw [if_pos (by omega), checkered]

theorem one_le_toNat_max (size : UInt32) : 1 ≤ (max 1 size).toNat := by
  change 1 ≤ (if 1 ≤ size then size else 1).toNat
  split
  next some => exact UInt32.le_iff_toNat_le.1 some
  next => decide

theorem IsMade.wellSized {t : Texture} (made : t.IsMade) : t.WellSized := by
  cases made with
  | ofPixels accepted =>
    obtain ⟨width, height, size, -, rfl⟩ := ofPixels?_eq_ok_iff.1 accepted
    exact ⟨UInt32.lt_iff_toNat_lt.1 width, UInt32.lt_iff_toNat_lt.1 height, size⟩
  | white => exact ⟨le_rfl, le_rfl, rfl⟩
  | checkerboard answered =>
    rw [checkerboard?_eq_ite, Option.ite_none_right_eq_some] at answered
    obtain ⟨-, ⟨⟩⟩ := answered
    exact ⟨one_le_toNat_max _, one_le_toNat_max _, size_checkerPixels _ _ _ _⟩

/-! ## Lookups -/

/-- The bytes of a row of texels. -/
def row (t : Texture) (y : Nat) : List UInt8 :=
  (t.pixels.toList.drop (y * (4 * t.width.toNat))).take (4 * t.width.toNat)

/-- The bytes of the texel in a column and row. -/
def bytesAt (t : Texture) (x y : Nat) : List UInt8 :=
  ((t.row y).drop (4 * x)).take 4

variable {t : Texture} {x y : Nat} {α : Type} [Scalar α]

theorem bytesAt_eq (t : Texture) (hx : x < t.width.toNat) :
    t.bytesAt x y = (t.pixels.toList.drop ((y * t.width.toNat + x) * 4)).take 4 := by
  have place : y * (4 * t.width.toNat) + 4 * x = (y * t.width.toNat + x) * 4 := by ring
  rw [bytesAt, row, List.drop_take, List.take_take, List.drop_drop, place, min_eq_left (by omega)]

/-- The texel in a column and row is found at its bytes. -/
theorem WellSized.texel?_eq (sized : t.WellSized) (hx : x < t.width.toNat)
    (hy : y < t.height.toNat) :
    ∃ p : Texel, t.bytesAt x y = p.bytes ∧ t.texel? x y = some (p.shares : Vec4 α) := by
  -- The last byte of the texel is inside, hence the other three are.
  have last : (y * t.width.toNat + x) * 4 + 3 < t.pixels.size := by
    have rows : (y + 1) * t.width.toNat ≤ t.height.toNat * t.width.toNat :=
      Nat.mul_le_mul_right _ hy
    rw [sized.size_pixels]
    nlinarith
  generalize start : (y * t.width.toNat + x) * 4 = i at last
  refine ⟨⟨t.pixels[i], t.pixels[i + 1], t.pixels[i + 2], t.pixels[i + 3]⟩, ?_, ?_⟩
  · have length : i + 3 < t.pixels.toList.length := last
    rw [bytesAt_eq t hx, start]
    rw [List.drop_eq_getElem_cons (by omega), List.drop_eq_getElem_cons (by omega),
      List.drop_eq_getElem_cons (by omega), List.drop_eq_getElem_cons (by omega)]
    rfl
  · simp only [texel?, start]
    rw [Array.getElem?_eq_getElem (by omega), Array.getElem?_eq_getElem (by omega),
      Array.getElem?_eq_getElem (by omega), Array.getElem?_eq_getElem last]
    rfl

/-- A coordinate always falls on a column. -/
theorem wrap_lt {n : Nat} (positive : 1 ≤ n) (coord : α) : wrap n coord < n :=
  (min_le_right _ _).trans_lt (Nat.sub_lt positive one_pos)

/-- Every image that is made has texels, with four bytes for each, and a lookup at any coordinates
finds one of them, even if a coordinate is infinite or NaN. What it gives are the bytes of a texel
as shares of the largest byte, numbers from zero to one. -/
theorem lookup_stays_inside (made : t.IsMade) :
    t.WellSized ∧ ∀ uv : Vec2 Float32,
      let x := wrap t.width.toNat uv.x
      let y := wrap t.height.toNat uv.y
      x < t.width.toNat ∧ y < t.height.toNat ∧
      ∃ p : Texel, t.bytesAt x y = p.bytes ∧ t.nearest? uv = some p.shares ∧
        ∀ c ∈ (p.shares : Vec4 Float32).toList, 0 ≤ c ∧ c ≤ 1 := by
  have sized := made.wellSized
  refine ⟨sized, fun uv => ?_⟩
  have hx := wrap_lt sized.width_pos uv.x
  have hy := wrap_lt sized.height_pos uv.y
  obtain ⟨p, bytes, found⟩ := sized.texel?_eq (α := Float32) hx hy
  exact ⟨hx, hy, p, bytes, found, p.shares_mem⟩

/-- A column that is undefined, and a row so little below zero that its fractional part is rounded
up to one. -/
theorem lookup_stays_inside_rounded_up :
    let t := (checkerboard? 3 2 ⟨255, 255, 255, 255⟩ ⟨0, 0, 0, 255⟩).get rfl
    let uv : Vec2 Float32 := ⟨.ofBits 0x7fc00000, .ofBits 0xa0000000⟩
    t.IsMade ∧ Scalar.fract uv.y = 1 ∧
      wrap t.width.toNat uv.x < t.width.toNat ∧ wrap t.height.toNat uv.y < t.height.toNat ∧
      ∃ p : Texel, t.bytesAt (wrap t.width.toNat uv.x) (wrap t.height.toNat uv.y) = p.bytes ∧
        t.nearest? uv = some p.shares ∧ ∀ c ∈ (p.shares : Vec4 Float32).toList, 0 ≤ c ∧ c ≤ 1 := by
  intro t uv
  have made : t.IsMade := .checkerboard (Option.some_get rfl).symm
  exact ⟨made, by decide, (lookup_stays_inside made).2 uv⟩

end Texture

end GroundPlane
