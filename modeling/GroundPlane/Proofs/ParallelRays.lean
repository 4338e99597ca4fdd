import Mathlib
import GroundPlane.Grid.Fragment
import GroundPlane.Proofs.SingleOrder

/-!
# Rays parallel to the ground

In single precision a ray parallel to the ground divides its height by a positive zero. Above the
ground and on it the quotient fails the visibility test, but below the ground it is positive
infinity and passes (`parallel_ray_visible_iff_below`). The grid stays transparent there, since the
infinite ground point is on no line: only the color of the lines is left in the fragment.
-/

namespace GroundPlane

open Float.Model Rounding

namespace SinglePrecision

variable {x y a b : Float32}

/-! ## What is not finite -/

theorem not_isFinite_add (h : ¬ x.isFinite ∨ ¬ y.isFinite) : ¬ (x + y).isFinite := by
  intro finite
  obtain ⟨hx, hy⟩ := isFinite_of_add finite
  rcases h with h | h
  · exact h hx
  · exact h hy

theorem not_isFinite_sub (h : ¬ x.isFinite) : ¬ (x - y).isFinite :=
  fun finite => h (isFinite_of_sub finite).1

theorem not_isFinite_mul (h : ¬ x.isFinite ∨ ¬ y.isFinite) : ¬ (x * y).isFinite := by
  intro finite
  obtain ⟨hx, hy⟩ := isFinite_of_mul finite
  rcases h with h | h
  · exact h hx
  · exact h hy

/-- The integer below an infinity is the infinity itself. -/
theorem isNaN_fract (h : ¬ x.isFinite) : (Scalar.fract x).isNaN := by
  change (UnpackedFloat.unpack .binary32 (UnpackedFloat.pack .binary32
    (.sub .binary32 x.toModel.unpack (UnpackedFloat.unpack .binary32
      (UnpackedFloat.pack .binary32 (floorUnpacked .binary32 x.toModel.unpack)))))).isNaN
  rw [isNaN_unpack_pack]
  change ¬ x.toModel.unpack.isFinite = true at h
  generalize x.toModel.unpack = u at h
  cases u with
  | notANumber => rfl
  | zero | finite => exact absurd rfl h
  | infinity s => cases s <;> rfl

theorem lesser_of_isNaN (ha : a.isNaN) (hb : b.isNaN = false) : Scalar.lesser a b = b := by
  change (if b.isNaN then a else if a < b then a else b) = b
  rw [hb, if_neg Bool.false_ne_true, if_neg (not_lt_of_isNaN (.inl ha))]

theorem greater_of_isNaN (ha : a.isNaN) (hb : b.isNaN = false) : Scalar.greater a b = b := by
  change (if b.isNaN then a else if b < a then a else b) = b
  rw [hb, if_neg Bool.false_ne_true, if_neg (not_lt_of_isNaN (.inr ha))]

theorem isNaN_lesser (ha : a.isNaN) (hb : b.isNaN) : (Scalar.lesser a b).isNaN := by
  change (if b.isNaN then a else if a < b then a else b).isNaN
  rwa [if_pos hb]

/-! ## Division by a difference of equals -/

/-- Equal finite numbers are the same number, up to the sign of a zero. -/
theorem unpack_of_beq (finite : x.isFinite) (equal : x == y) :
    x.toModel.unpack = y.toModel.unpack ∨
      ∃ s t, x.toModel.unpack = .zero s ∧ y.toModel.unpack = .zero t := by
  obtain ⟨-, number, same⟩ := beq_iff.1 equal
  change x.toModel.unpack.isFinite = true at finite
  change y.toModel.unpack.isNaN = false at number
  generalize x.toModel.unpack = u at finite same
  generalize y.toModel.unpack = v at number same
  cases u with
  | notANumber | infinity => cases finite
  | zero s =>
    cases v with
    | notANumber => cases number
    | zero t => exact .inr ⟨s, t, rfl, rfl⟩
    | infinity t | finite t => cases t <;> simp [rank] at same
  | finite s m e positive =>
    cases v with
    | notANumber => cases number
    | infinity t | zero t => cases s <;> cases t <;> simp [rank] at same
    | finite t n d positive' =>
      left
      cases s <;> cases t <;> simp [rank] at same
      · obtain ⟨rfl, rfl⟩ := same
        rfl
      · obtain ⟨rfl, rfl⟩ := same
        rfl

/-- The difference of equal numbers is a zero, and a positive one unless both are zeros. -/
theorem sub_of_beq (finite : x.isFinite) (equal : x == y) :
    (∃ s m e positive, x.toModel.unpack = .finite s m e positive ∧
      (y - x).toModel.unpack = .zero .positive) ∨
      ∃ s t, x.toModel.unpack = .zero s ∧ (y - x).toModel.unpack = .zero t := by
  have difference :
      (y - x).toModel.unpack = UnpackedFloat.unpack .binary32 (UnpackedFloat.pack .binary32
    (.sub .binary32 y.toModel.unpack x.toModel.unpack)) := rfl
  rcases unpack_of_beq finite equal with same | ⟨s, t, zero, zero'⟩
  · change x.toModel.unpack.isFinite = true at finite
    rw [difference, ← same]
    generalize x.toModel.unpack = u at finite
    cases u with
    | notANumber | infinity => cases finite
    | zero s => cases s <;> exact .inr ⟨_, _, rfl, unpack_pack_zero _⟩
    | finite s m e positive =>
      left
      have cancelled :
          UnpackedFloat.sub .binary32 (.finite s m e positive) (.finite s m e positive) =
          .zero .positive := by
        simp only [UnpackedFloat.sub, sub_self, UnpackedFloat.normalize]
        rfl
      rw [cancelled]
      exact ⟨s, m, e, positive, rfl, unpack_pack_zero _⟩
  · rw [difference, zero, zero']
    cases s <;> cases t <;> exact .inr ⟨_, _, rfl, unpack_pack_zero _⟩

/-- A negative number gives positive infinity, a positive one negative infinity, and a zero NaN. -/
theorem neg_div_sub_of_beq (finite : x.isFinite) (equal : x == y) :
    ¬ (-x / (y - x)).isFinite ∧ (0 < -x / (y - x) ↔ x < 0) := by
  have quotient :
      (-x / (y - x)).toModel.unpack = UnpackedFloat.unpack .binary32 (UnpackedFloat.pack .binary32
    (.div .binary32 (-x).toModel.unpack (y - x).toModel.unpack)) := rfl
  change ¬ (-x / (y - x)).toModel.unpack.isFinite = true ∧ _
  rw [pos_iff, neg_iff, quotient, unpack_neg]
  rcases sub_of_beq finite equal with
    ⟨s, m, e, positive, number, difference⟩ | ⟨s, t, number, difference⟩
  · have infinite :
        UnpackedFloat.div .binary32 (UnpackedFloat.neg (.finite s m e positive)) (.zero .positive) =
        .infinity (-s) := by cases s <;> rfl
    rw [number, difference, infinite, unpack_pack_infinity]
    refine ⟨Bool.false_ne_true, ?_⟩
    cases s with
    | negative => exact iff_of_true (.inr rfl) (.inl ⟨m, e, positive, rfl⟩)
    | positive => exact iff_of_false (by simp) (by simp)
  · have undefined : UnpackedFloat.div .binary32 (UnpackedFloat.neg (.zero s)) (.zero t) =
        .notANumber := rfl
    have read : UnpackedFloat.unpack .binary32 (UnpackedFloat.pack .binary32 .notANumber) =
        .notANumber := rfl
    rw [number, difference, undefined, read]
    exact ⟨Bool.false_ne_true, iff_of_false (by simp) (by simp)⟩

theorem isNaN_sub_mul_of_beq {t : Float32} (finite : x.isFinite) (equal : x == y)
    (ht : ¬ t.isFinite) : ((y - x) * t).isNaN := by
  have zero : ∃ s, (y - x).toModel.unpack = .zero s := by
    rcases sub_of_beq finite equal with ⟨s, m, e, positive, -, difference⟩ | ⟨s, t, -, difference⟩
    · exact ⟨_, difference⟩
    · exact ⟨_, difference⟩
  obtain ⟨s, zero⟩ := zero
  change ¬ t.toModel.unpack.isFinite = true at ht
  change (UnpackedFloat.unpack .binary32 (UnpackedFloat.pack .binary32
    (.mul .binary32 (y - x).toModel.unpack t.toModel.unpack))).isNaN
  rw [isNaN_unpack_pack, zero]
  generalize t.toModel.unpack = u at ht
  cases u with
  | notANumber | infinity => rfl
  | zero | finite => exact absurd rfl ht

end SinglePrecision

/-! ## Points with an undefined height -/

open SinglePrecision

namespace Projector

theorem isNaN_depth (p : Projector Float32) {world : Vec3 Float32} (height : world.y.isNaN) :
    (p.depth world).isNaN := by
  have column (a b c d x z : Float32) : (a * x + b * world.y + c * z + d * 1).isNaN := by
    apply isNaN_add
    left
    apply isNaN_add
    left
    apply isNaN_add
    right
    exact isNaN_mul (.inr height)
  exact isNaN_div (.inl (column _ _ _ _ _ _))

theorem isNaN_linearDepth (p : Projector Float32) {world : Vec3 Float32} (height : world.y.isNaN) :
    (p.linearDepth world).isNaN := by
  have depth : (p.depth world * 2.0 - 1).isNaN :=
    isNaN_sub (.inl (isNaN_mul (.inl (p.isNaN_depth height))))
  apply isNaN_div
  left
  apply isNaN_div
  right
  exact isNaN_sub (.inr (isNaN_mul (.inl depth)))

end Projector

namespace Grid

theorem fade_of_isNaN {linearDepth : Float32} (h : linearDepth.isNaN) (offset : Float32) :
    fade linearDepth offset = 0 :=
  greater_of_isNaN (isNaN_sub (.inr h)) rfl

/-! ## Points that are not finite -/

theorem isNaN_lineDistance {coord : Float32} (h : ¬ coord.isFinite) : (lineDistance coord).isNaN :=
  (isNaN_abs _).trans (isNaN_sub (.inl (isNaN_fract (not_isFinite_sub h))))

theorem withinBand_of_not_isFinite {x : Float32} (h : ¬ x.isFinite) (band : Float32) :
    withinBand band x = false := by
  by_contra inside
  rw [Bool.not_eq_false, withinBand, Bool.and_eq_true, decide_eq_true_iff,
    decide_eq_true_iff] at inside
  exact h (isFinite_of_lt_of_lt inside.1 inside.2)

/-- A point that is infinitely far away is on no line and on no axis. -/
theorem pattern_of_not_isFinite {positions : Patch (Vec3 Float32)}
    (hx : ¬ positions.here.x.isFinite) (hz : ¬ positions.here.z.isFinite) (scale : Float32)
    (style : Style Float32) : pattern positions scale style = style.lineColor.extend 0 := by
  have distance {x : Float32} (h : ¬ x.isFinite) (extent : Float32) :
      (lineDistance (x * scale) / extent).isNaN :=
    isNaN_div (.inl (isNaN_lineDistance (not_isFinite_mul (.inl h))))
  unfold pattern
  dsimp only
  rw [withinBand_of_not_isFinite hx, withinBand_of_not_isFinite hz]
  have line (extent : Vec2 Float32) :
      Scalar.lesser (Scalar.lesser (lineDistance (positions.here.x * scale) / extent.x)
        (lineDistance (positions.here.z * scale) / extent.y)) 1 = 1 :=
    lesser_of_isNaN (isNaN_lesser (distance hx _) (distance hz _)) rfl
  have off : (1 : Float32) - 1 = 0 := by decide +kernel
  exact congrArg (Vec4.mk _ _ _) ((congrArg (1 - ·) (line _)).trans off)

/-! ## Parallel rays -/

/-- The ends of the ray are at the same finite height. -/
structure Ray.IsParallel (r : Ray Float32) : Prop where
  finite : r.near.y.isFinite
  level : r.near.y == r.far.y

namespace Ray.IsParallel

variable {r : Ray Float32}

theorem not_isFinite_t (h : r.IsParallel) : ¬ r.ground.t.isFinite :=
  (neg_div_sub_of_beq h.finite h.level).1

theorem isVisible_iff (h : r.IsParallel) : r.ground.isVisible ↔ r.near.y < 0 := by
  change decide (0 < r.ground.t) = true ↔ _
  rw [decide_eq_true_iff]
  exact (neg_div_sub_of_beq h.finite h.level).2

theorem isNaN_height (h : r.IsParallel) : r.ground.position.y.isNaN :=
  isNaN_add (.inr (isNaN_sub_mul_of_beq h.finite h.level h.not_isFinite_t))

/-- Whatever is added to the near end, the ground point is not finite. -/
theorem pattern_eq {positions : Patch (Vec3 Float32)} (h : r.IsParallel)
    (here : positions.here = r.ground.position) (scale : Float32)
    (style : Style Float32) : pattern positions scale style = style.lineColor.extend 0 := by
  have beyond (start way : Float32) : ¬ (start + way * r.ground.t).isFinite :=
    not_isFinite_add (.inr (not_isFinite_mul (.inr h.not_isFinite_t)))
  apply pattern_of_not_isFinite
  · rw [here]
    exact beyond _ _
  · rw [here]
    exact beyond _ _

end Ray.IsParallel

/-- Let the view ray of a pixel be parallel to the ground. Then it meets the ground at no finite
share of its length, and it passes the visibility test just if it runs below the ground. The
fragment is transparent black above the ground and on it, and otherwise the color of the lines,
added up over both patterns, with an alpha of zero. -/
theorem parallel_ray_visible_iff_below (rays : Patch (Ray Float32)) (p : Projector Float32)
    (style : Style Float32) (parallel : rays.here.IsParallel) :
    ¬ rays.here.ground.t.isFinite ∧
      (rays.here.ground.isVisible ↔ rays.here.near.y < 0) ∧
      (fragment rays p style).color =
        if rays.here.near.y < 0 then (0 + style.lineColor + style.lineColor).extend 0 else 0 := by
  refine ⟨parallel.not_isFinite_t, parallel.isVisible_iff, ?_⟩
  have lines : patterns ((rays.map Ray.ground).map Hit.position) style =
      0 + style.lineColor.extend 0 + style.lineColor.extend 0 := by
    unfold patterns
    rw [parallel.pattern_eq rfl, parallel.pattern_eq rfl]
  have faded : fade (p.linearDepth (rays.map Ray.ground).here.position) style.fadeOffset = 0 :=
    fade_of_isNaN (p.isNaN_linearDepth parallel.isNaN_height) _
  have visible : (rays.map Ray.ground).here.isVisible ↔ rays.here.near.y < 0 :=
    parallel.isVisible_iff
  unfold fragment
  dsimp only
  rw [lines, faded]
  have transparent : ((0 : Float32) + 0 + 0) * 0 = 0 := by decide +kernel
  by_cases below : rays.here.near.y < 0
  · rw [if_pos (visible.2 below), if_pos below]
    -- the first three components are the sums of the colors on both sides
    exact congrArg (Vec4.mk _ _ _) transparent
  · rw [if_neg (mt visible.1 below), if_neg below]

/-- A ray that runs along the ground, at a positive and a negative zero. -/
theorem parallel_ray_visible_iff_below_zeros :
    let rays : Patch (Ray Float32) := .constant ⟨⟨1, 0, 2.0⟩, ⟨5.0, -0, -5.0⟩⟩
    rays.here.IsParallel ∧ ¬ rays.here.ground.isVisible ∧
      (fragment rays .standard .standard).color = 0 := by
  intro rays
  have parallel : rays.here.IsParallel := ⟨by decide +kernel, by decide +kernel⟩
  have level : ¬ rays.here.near.y < 0 := by decide +kernel
  obtain ⟨-, visible, color⟩ := parallel_ray_visible_iff_below rays .standard .standard parallel
  rw [if_neg level] at color
  exact ⟨parallel, mt visible.1 level, color⟩

/-- A ray two units below the ground is seen, and leaves the color of the lines in the fragment. -/
theorem parallel_ray_below_seen :
    let ray : Ray Float32 := ⟨⟨0, -2.0, 0⟩, ⟨5.0, -2.0, -5.0⟩⟩
    ray.IsParallel ∧ ray.ground.isVisible ∧
      (fragment (.constant ray) .standard .standard).color = ⟨0.4, 0.4, 0.4, 0⟩ := by
  intro ray
  exact ⟨⟨by decide +kernel, by decide +kernel⟩, by decide +kernel, by decide +kernel⟩

end Grid

end GroundPlane
