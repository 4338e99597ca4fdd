import Mathlib
import GroundPlane.Lighting.Stage
import GroundPlane.Proofs.RoundingOrder

/-!
# Light stays within its range

In single precision, normals and directions may be undefined, since they are divided by lengths that
may be zero, infinite or NaN. Whatever comes of them, a surface gets a share of light between a half
and one, and a fragment is at least half as bright as its color and at most as bright, up to
rounding (`light_stays_in_range`).
-/

namespace GroundPlane

open Float.Model Rounding

namespace SinglePrecision

variable {x y z : Float32}

theorem greater_zero_nonneg (x : Float32) : 0 ≤ Scalar.greater x 0 := by
  change 0 ≤ if 0 < x then x else 0
  split
  next positive => exact SinglePrecision.le_of_lt positive
  next => exact SinglePrecision.le_refl rfl

theorem le_infinity (hx : x.isNaN = false) (hy : y.toModel.unpack = .infinity .positive) :
    x ≤ y := by
  refine le_iff.2 ⟨hx, ?_, ?_⟩
  · change y.toModel.unpack.isNaN = false
    rw [hy]
    rfl
  · rw [hy]
    exact (rank_infinity_le _).2

theorem unpack_of_not_isFinite (nonneg : 0 ≤ x) (infinite : ¬ x.isFinite) :
    x.toModel.unpack = .infinity .positive := by
  obtain ⟨-, number, le⟩ := le_iff.1 nonneg
  change ¬ x.toModel.unpack.isFinite = true at infinite
  change x.toModel.unpack.isNaN = false at number
  change 0 ≤ rank x.toModel.unpack at le
  generalize x.toModel.unpack = u at *
  cases u with
  | notANumber => cases number
  | zero | finite => exact absurd rfl infinite
  | infinity s =>
    cases s with
    | positive => rfl
    | negative => exact absurd le (by decide)

/-- Adding what is not negative, be it infinite, does not make less. -/
theorem le_add_of_nonneg (nonneg : 0 ≤ x) (finite : y.isFinite) : y ≤ x + y := by
  by_cases hx : x.isFinite
  · exact (isRounded_toRat finite).le (isRounded_add hx finite)
      (le_add_of_nonneg_left (toRat_nonneg hx nonneg))
  · have infinite := unpack_of_not_isFinite nonneg hx
    apply le_infinity (isNaN_of_isFinite finite)
    change UnpackedFloat.unpack .binary32 (UnpackedFloat.pack .binary32
      (.add .binary32 x.toModel.unpack y.toModel.unpack)) = _
    change y.toModel.unpack.isFinite = true at finite
    rw [infinite]
    generalize y.toModel.unpack = v at *
    cases v with
    | notANumber | infinity => cases finite
    | zero | finite => exact unpack_pack_infinity _

theorem le_clamp {lo hi : Float32} (lower : y ≤ x) (upper : y ≤ hi) : y ≤ Scalar.clamp lo hi x := by
  unfold Scalar.clamp
  split
  next below => exact SinglePrecision.le_trans lower (SinglePrecision.le_of_lt below)
  next =>
    split
    next => exact upper
    next => exact lower

end SinglePrecision

open SinglePrecision

namespace Lighting

/-- The larger of a number and zero is a number, even if the former is NaN, and clamping is left
with the top. -/
theorem diffuse_mem (normal position light : Vec3 Float32) :
    0.5 ≤ diffuse normal position light ∧ diffuse normal position light ≤ 1 := by
  have lit : 0.5 ≤ Scalar.greater (normal.dot (light - position).normalize) 0 + (0.5 : Float32) :=
    le_add_of_nonneg (greater_zero_nonneg _) rfl
  exact ⟨le_clamp lit (by decide +kernel), (clamp_mem (by decide +kernel) (isNaN_of_le lit).2).2⟩

/-- A color that is scaled by a share of light, and then by the texture, keeps between the least
share and all. -/
theorem shaded_mem {share c t : Float32} (lit : 0.5 ≤ share ∧ share ≤ 1) (hc : c.isFinite)
    (hc' : 0 ≤ c) (ht : t.isFinite)
    (ht' : 0 ≤ t) : 0.5 * c * t ≤ c * share * t ∧ c * share * t ≤ c * t := by
  have finite : share.isFinite := isFinite_of_mem rfl rfl lit.1 lit.2
  have half := toRat_le rfl finite lit.1
  have whole := toRat_le finite rfl lit.2
  have color := toRat_nonneg hc hc'
  rw [toRat_half] at half
  rw [toRat_one] at whole
  have dim := isRounded_mul (x := 0.5) rfl hc
  have shaded := isRounded_mul hc finite
  rw [toRat_half] at dim
  have nonneg : 0 ≤ 0.5 * c := (isRounded_toRat rfl).le dim (mul_nonneg one_half_pos.le color)
  have lower : 0.5 * c ≤ c * share := by
    apply dim.le shaded
    rw [mul_comm]
    exact mul_le_mul_of_nonneg_left half color
  have upper : c * share ≤ c := shaded.le (isRounded_toRat hc) (mul_le_of_le_one_right color whole)
  have dimFinite : (0.5 * c).isFinite :=
    isFinite_of_mem rfl hc nonneg (SinglePrecision.le_trans lower upper)
  have shadedFinite : (c * share).isFinite := isFinite_of_mem dimFinite hc lower upper
  exact ⟨SinglePrecision.mul_le_mul_right dimFinite shadedFinite ht ht' lower,
    SinglePrecision.mul_le_mul_right shadedFinite hc ht ht' upper⟩

/-- Any surface gets a share of light from a half to one, whatever its normal, its position and the
light's. So a fragment is opaque, and each channel of a color that is finite and not negative is
scaled to between half of it and all of it, before the texture's channel and rounded as it is
multiplied. -/
theorem light_stays_in_range :
    (∀ normal position light : Vec3 Float32,
      (diffuse normal position light).isNaN = false ∧ 0.5 ≤ diffuse normal position light ∧
        diffuse normal position light ≤ 1) ∧
    ∀ (patch : Patch (Varying Float32)) (texel : Vec4 Float32) (object : Object Float32),
      (fragment patch texel object).w = 1 ∧
      ∀ channel ∈ [Vec4.x, Vec4.y, Vec4.z],
        (channel patch.here.color).isFinite → 0 ≤ channel patch.here.color →
        (channel texel).isFinite → 0 ≤ channel texel →
          0.5 * channel patch.here.color * channel texel ≤ channel (fragment patch texel object) ∧
          channel (fragment patch texel object) ≤ channel patch.here.color * channel texel := by
  refine ⟨fun normal position light => ?_, fun patch texel object => ⟨rfl, ?_⟩⟩
  · have range := diffuse_mem normal position light
    exact ⟨(isNaN_of_le range.1).2, range⟩
  · have lit := diffuse_mem (fragmentNormal patch object.normals) patch.here.position object.light
    simp only [List.forall_mem_cons, List.not_mem_nil, IsEmpty.forall_iff, implies_true, and_true]
    exact ⟨shaded_mem lit, shaded_mem lit, shaded_mem lit⟩

/-- A fragment at an undefined position of a surface with no normal, whose color is so bright that
the product with the texture's overflows. -/
theorem light_stays_in_range_undefined :
    let undefined : Float32 := .ofBits 0x7fc00000
    let here : Varying Float32 := ⟨0, ⟨undefined, 0, 1⟩, ⟨3.0e38, 0.6, 0, 1⟩, 0, 0⟩
    let texel : Vec4 Float32 := ⟨2.0, 0.3, 1, 0⟩
    let color (normals : NormalSource) :=
      fragment (.constant here) texel ⟨.identity, ⟨0, 4.0, 0⟩, normals⟩
    (undefined.isNaN ∧ (here.color.x * texel.x).isFinite = false) ∧
      (0.5 * here.color.x * texel.x ≤ (color .derivative).x ∧
        (color .derivative).x ≤ here.color.x * texel.x) ∧
      (0.5 * here.color.y * texel.y ≤ (color .vertex).y ∧
        (color .vertex).y ≤ here.color.y * texel.y) := by
  intro undefined here texel color
  have range (normals : NormalSource) :=
    (light_stays_in_range.2 (.constant here) texel ⟨.identity, ⟨0, 4.0, 0⟩, normals⟩).2
  exact ⟨by decide +kernel,
    range .derivative Vec4.x (by simp) (by decide +kernel) (by decide +kernel) (by decide +kernel)
      (by decide +kernel),
    range .vertex Vec4.y (by simp) (by decide +kernel) (by decide +kernel) (by decide +kernel)
      (by decide +kernel)⟩

end Lighting

end GroundPlane
