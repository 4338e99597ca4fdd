import Mathlib
import GroundPlane.Scalar.Single
import GroundPlane.Proofs.Rounding

/-!
# Infinities, NaN and the order of single precision

Sums and products of finite numbers may overflow, but they are numbers; NaN comes only from NaN and
from what has no limit, such as infinity times zero. Numbers other than NaN are totally ordered, so
that clamping one to an interval ends up in it (`clamp_mem`).
-/

namespace GroundPlane

open Float.Model

namespace Rounding

variable {format : Format}

theorem isFinite_roundWithAccuracy (s : UnpackedFloat.Sign) (m : Nat) (e : Int)
    (accuracy : UnpackedFloat.Accuracy) :
    (UnpackedFloat.roundWithAccuracy format s m e accuracy).isFinite := by
  unfold UnpackedFloat.roundWithAccuracy
  dsimp only
  split <;> rfl

theorem isFinite_normalize (n e : Int) (s : UnpackedFloat.Sign) :
    (UnpackedFloat.normalize format n e s).isFinite := by
  unfold UnpackedFloat.normalize
  split
  · exact isFinite_roundWithAccuracy _ _ _ _
  · rfl
  · exact isFinite_roundWithAccuracy _ _ _ _

theorem isNaN_ofMantissa (s : UnpackedFloat.Sign) (m : Nat) (e : Int) :
    (ofMantissa s m e).isNaN = false := by
  unfold ofMantissa
  split <;> rfl

theorem isNaN_of_isFinite {u : UnpackedFloat} (finite : u.isFinite) : u.isNaN = false := by
  cases u with
  | notANumber => cases finite
  | infinity | zero | finite => rfl

end Rounding

namespace SinglePrecision

open Rounding

variable {x y z lo hi : Float32}

/-! ## Writing and reading -/

theorem unpack_pack_infinity (s : UnpackedFloat.Sign) :
    UnpackedFloat.unpack .binary32 (UnpackedFloat.pack .binary32 (.infinity s)) = .infinity s := by
  cases s <;> rfl

theorem unpack_pack_zero (s : UnpackedFloat.Sign) :
    UnpackedFloat.unpack .binary32 (UnpackedFloat.pack .binary32 (.zero s)) = .zero s :=
  unpack_pack (k := 0) trivial (by decide) (by decide)

theorem unpack_pack_overflow (s : UnpackedFloat.Sign) {m : Nat} {e : Int} (positive : 0 < m)
    (beyond :
      ¬ (e + Format.binary32.exponentBias + Format.binary32.mantissaBitsWithoutImplicit).toNat + 1 <
      2 ^ Format.binary32.exponentBits) :
    UnpackedFloat.unpack .binary32 (UnpackedFloat.pack .binary32 (.finite s m e positive)) =
      .infinity s := by
  have overflow : UnpackedFloat.pack .binary32 (.finite s m e positive) =
    UnpackedFloat.pack .binary32 (.infinity s) := if_pos (not_lt.1 beyond)
  rw [overflow, unpack_pack_infinity]

/-- A number with the right last place is read back as it was written, unless it is out of range. -/
theorem unpack_pack_cases {s : UnpackedFloat.Sign} {m : Nat} {e k : Int} {positive : 0 < m}
    (bounded : Bounded .binary32 k (.finite s m e positive)) :
    UnpackedFloat.unpack .binary32 (UnpackedFloat.pack .binary32 (.finite s m e positive)) =
      .finite s m e positive ∨
      UnpackedFloat.unpack .binary32 (UnpackedFloat.pack .binary32 (.finite s m e positive)) =
        .infinity s := by
  by_cases range :
    (e + Format.binary32.exponentBias + Format.binary32.mantissaBitsWithoutImplicit).toNat + 1 <
      2 ^ Format.binary32.exponentBits
  · exact .inl (Representable.unpack_pack (u := .finite s m e positive) ⟨bounded.1, range⟩
      (by decide))
  · exact .inr (unpack_pack_overflow s positive range)

/-- Whatever is written as a finite number is read with its sign, as a finite number or an
infinity. -/
theorem unpack_pack_sign (s : UnpackedFloat.Sign) {m : Nat} {e : Int} (positive : 0 < m) :
    (∃ n d, UnpackedFloat.unpack .binary32 (UnpackedFloat.pack .binary32 (.finite s m e positive)) =
      ofMantissa s n d) ∨
    UnpackedFloat.unpack .binary32 (UnpackedFloat.pack .binary32 (.finite s m e positive)) =
      .infinity s := by
  by_cases range :
    (e + Format.binary32.exponentBias + Format.binary32.mantissaBitsWithoutImplicit).toNat + 1 <
      2 ^ Format.binary32.exponentBits
  · left
    rw [pack_finite positive range, unpack_packComponents s]
    · split <;> split <;> exact ⟨_, _, rfl⟩
    · split
      · exact ofNat_ne_neg_one range
      · decide
  · exact .inr (unpack_pack_overflow s positive range)

/-- A number is never written as NaN; one out of range is written as an infinity. -/
theorem isNaN_unpack_pack (u : UnpackedFloat) :
    (UnpackedFloat.unpack .binary32 (UnpackedFloat.pack .binary32 u)).isNaN = u.isNaN := by
  cases u with
  | notANumber => rfl
  | infinity s => rw [unpack_pack_infinity]
  | zero s => rw [unpack_pack_zero]
  | finite s m e positive =>
    rcases unpack_pack_sign s positive with ⟨n, d, finite⟩ | infinite
    · rw [finite]
      exact isNaN_ofMantissa s n d
    · rw [infinite]
      rfl

theorem isFinite_of_unpack_pack {u : UnpackedFloat}
    (finite : (UnpackedFloat.unpack .binary32 (UnpackedFloat.pack .binary32 u)).isFinite) :
    u.isFinite := by
  cases u with
  | infinity s => rwa [unpack_pack_infinity] at finite
  | notANumber => exact finite
  | zero => rfl
  | finite => rfl

/-- A number that has been read can be written with either sign. -/
theorem unpack_pack_of_abs {u : UnpackedFloat} (same : u.abs = x.toModel.unpack.abs) :
    UnpackedFloat.unpack .binary32 (UnpackedFloat.pack .binary32 u) = u := by
  cases u with
  | notANumber => rfl
  | infinity s => exact unpack_pack_infinity s
  | zero s => exact unpack_pack_zero s
  | finite s m e positive =>
    cases unpacked : x.toModel.unpack with
    | notANumber | infinity | zero =>
      rw [unpacked] at same
      cases same
    | finite t n d positive' =>
      have finite : x.toModel.unpack.isFinite := by
        rw [unpacked]
        rfl
      have held : Representable .binary32 x.toModel.unpack :=
        representable_unpack finite (by decide)
      rw [unpacked] at same held
      cases same
      exact Representable.unpack_pack (u := .finite s m e positive) held (by decide)

theorem unpack_neg (x : Float32) : (-x).toModel.unpack = x.toModel.unpack.neg :=
  unpack_pack_of_abs (by cases x.toModel.unpack <;> rfl)

theorem unpack_abs (x : Float32) : x.abs.toModel.unpack = x.toModel.unpack.abs :=
  unpack_pack_of_abs (by cases x.toModel.unpack <;> rfl)

theorem isNaN_neg (x : Float32) : (-x).isNaN = x.isNaN := by
  change (-x).toModel.unpack.isNaN = x.toModel.unpack.isNaN
  rw [unpack_neg]
  cases x.toModel.unpack <;> rfl

theorem isNaN_abs (x : Float32) : x.abs.isNaN = x.isNaN := by
  change x.abs.toModel.unpack.isNaN = x.toModel.unpack.isNaN
  rw [unpack_abs]
  cases x.toModel.unpack <;> rfl

theorem isFinite_neg (x : Float32) : (-x).isFinite = x.isFinite := by
  change (-x).toModel.unpack.isFinite = x.toModel.unpack.isFinite
  rw [unpack_neg]
  cases x.toModel.unpack <;> rfl

/-! ## Order -/

/-- The place of a number in the order: by sign, exponent and mantissa, with infinities at the
ends. -/
def rank : UnpackedFloat → Int ×ₗ Int ×ₗ Int
  | .infinity .negative => toLex (-2, toLex (0, 0))
  | .finite .negative m e _ => toLex (-1, toLex (-e, -m))
  | .zero _ | .notANumber => toLex (0, toLex (0, 0))
  | .finite .positive m e _ => toLex (1, toLex (e, m))
  | .infinity .positive => toLex (2, toLex (0, 0))

theorem compare_places (s e d m n : Int) :
    compare (toLex (s, toLex (e, m))) (toLex (s, toLex (d, n))) =
      (compare e d).then (compare m n) := by
  rw [Prod.Lex.compare_def]
  simp [compareLex, compareOn, Prod.Lex.compare_def]

theorem compare_natCast (m n : Nat) : compare (m : Int) n = compare m n := by
  rw [compare_iff]
  rcases h : compare m n with _ | _ | _
  · exact Int.ofNat_lt.2 (compare_lt_iff_lt.1 h)
  · exact congrArg _ (compare_eq_iff_eq.1 h)
  · exact Int.ofNat_lt.2 (compare_gt_iff_gt.1 h)

theorem compare_neg (e d : Int) : compare (-e) (-d) = (compare e d).swap := by
  rw [compare_iff]
  rcases h : compare e d with _ | _ | _
  · exact Int.neg_lt_neg (compare_lt_iff_lt.1 h)
  · exact congrArg _ (compare_eq_iff_eq.1 h)
  · exact Int.neg_lt_neg (compare_gt_iff_gt.1 h)

/-- Numbers are compared by their ranks, and NaN with nothing. -/
theorem compare_eq (u v : UnpackedFloat) :
    u.compare v = if u.isNaN || v.isNaN then none else some (compare (rank u) (rank v)) := by
  cases u with
  | notANumber => cases v <;> rfl
  | infinity s | zero s =>
    cases v with
    | notANumber => cases s <;> rfl
    | infinity t | zero t | finite t n d positive' => cases s <;> cases t <;> rfl
  | finite s m e positive =>
    cases v with
    | notANumber => cases s <;> rfl
    | infinity t | zero t => cases s <;> cases t <;> rfl
    | finite t n d positive' =>
      cases s <;> cases t
      · change some ((compare e d).then (compare m n)).swap =
          some (compare (toLex (-1, toLex (-e, -(m : Int)))) (toLex (-1, toLex (-d, -(n : Int)))))
        rw [compare_places, compare_neg, compare_neg, compare_natCast, Ordering.swap_then]
      · rfl
      · rfl
      · change some ((compare e d).then (compare m n)) =
          some (compare (toLex (1, toLex (e, (m : Int)))) (toLex (1, toLex (d, (n : Int)))))
        rw [compare_places, compare_natCast]

theorem lt_iff :
    x < y ↔ x.isNaN = false ∧ y.isNaN = false ∧ rank x.toModel.unpack < rank y.toModel.unpack := by
  change decide (x.toModel.unpack.lt y.toModel.unpack = true) = true ↔
    x.toModel.unpack.isNaN = false ∧ _
  rw [decide_eq_true_iff]
  change (x.toModel.unpack.compare y.toModel.unpack == some .lt) = true ↔ _ ∧
    y.toModel.unpack.isNaN = false ∧ _
  rw [beq_iff_eq, compare_eq, ← compare_lt_iff_lt]
  cases x.toModel.unpack.isNaN <;> cases y.toModel.unpack.isNaN <;> simp

theorem le_iff :
    x ≤ y ↔ x.isNaN = false ∧ y.isNaN = false ∧ rank x.toModel.unpack ≤ rank y.toModel.unpack := by
  change decide (x.toModel.unpack.le y.toModel.unpack = true) = true ↔
    x.toModel.unpack.isNaN = false ∧ _
  rw [decide_eq_true_iff]
  change (x.toModel.unpack.compare y.toModel.unpack).any Ordering.isLE = true ↔ _ ∧
    y.toModel.unpack.isNaN = false ∧ _
  rw [compare_eq, ← compare_le_iff_le, Ne, ← Ordering.isLE_iff_ne_gt]
  cases x.toModel.unpack.isNaN <;> cases y.toModel.unpack.isNaN <;> simp

theorem beq_iff : x == y ↔
    x.isNaN = false ∧ y.isNaN = false ∧ rank x.toModel.unpack = rank y.toModel.unpack := by
  change (x.toModel.unpack.compare y.toModel.unpack == some .eq) = true ↔
    x.toModel.unpack.isNaN = false ∧
    y.toModel.unpack.isNaN = false ∧ _
  rw [beq_iff_eq, compare_eq, ← compare_eq_iff_eq (a := rank x.toModel.unpack)]
  cases x.toModel.unpack.isNaN <;> cases y.toModel.unpack.isNaN <;> simp

theorem isNaN_of_le (h : x ≤ y) : x.isNaN = false ∧ y.isNaN = false := by
  obtain ⟨hx, hy, -⟩ := le_iff.1 h
  exact ⟨hx, hy⟩

theorem not_lt_of_isNaN (h : x.isNaN ∨ y.isNaN) : ¬ x < y := by
  intro less
  obtain ⟨hx, hy, -⟩ := lt_iff.1 less
  rw [hx, hy] at h
  simp at h

protected theorem le_of_not_lt (hx : x.isNaN = false) (hy : y.isNaN = false) (h : ¬ x < y) :
    y ≤ x := by
  refine le_iff.2 ⟨hy, hx, ?_⟩
  by_contra less
  exact h (lt_iff.2 ⟨hx, hy, not_le.1 less⟩)

protected theorem le_refl (hx : x.isNaN = false) : x ≤ x :=
  le_iff.2 ⟨hx, hx, le_rfl⟩

protected theorem le_of_lt (h : x < y) : x ≤ y := by
  obtain ⟨hx, hy, less⟩ := lt_iff.1 h
  exact le_iff.2 ⟨hx, hy, less.le⟩

protected theorem le_trans (first : x ≤ y) (next : y ≤ z) : x ≤ z := by
  obtain ⟨hx, -, first⟩ := le_iff.1 first
  obtain ⟨-, hz, next⟩ := le_iff.1 next
  exact le_iff.2 ⟨hx, hz, first.trans next⟩

protected theorem lt_of_lt_of_le (first : x < y) (next : y ≤ z) : x < z := by
  obtain ⟨hx, -, first⟩ := lt_iff.1 first
  obtain ⟨-, hz, next⟩ := le_iff.1 next
  exact lt_iff.2 ⟨hx, hz, first.trans_le next⟩

theorem rank_neg (u : UnpackedFloat) : rank u.neg = -rank u := by
  cases u with
  | notANumber => rfl
  | infinity s => cases s <;> rfl
  | zero s => cases s <;> rfl
  | finite s m e positive =>
    cases s with
    | positive => rfl
    | negative =>
      change toLex (1, toLex (e, (m : Int))) = toLex (1, toLex (- -e, - -(m : Int)))
      rw [neg_neg, neg_neg]

theorem rank_infinity_le (u : UnpackedFloat) :
    rank (.infinity .negative) ≤ rank u ∧ rank u ≤ rank (.infinity .positive) := by
  cases u with
  | notANumber | zero => simp [rank, Prod.Lex.toLex_le_toLex]
  | infinity s | finite s => cases s <;> simp [rank, Prod.Lex.toLex_le_toLex]

/-- The finite numbers are those strictly between the infinities. -/
theorem isFinite_iff_rank {u : UnpackedFloat} (number : u.isNaN = false) :
    u.isFinite ↔ rank (.infinity .negative) < rank u ∧ rank u < rank (.infinity .positive) := by
  cases u with
  | notANumber => cases number
  | zero => simp [rank, UnpackedFloat.isFinite, Prod.Lex.toLex_lt_toLex]
  | infinity s | finite s => cases s <;>
      simp [rank, UnpackedFloat.isFinite, Prod.Lex.toLex_lt_toLex]

theorem isFinite_of_mem (hlo : lo.isFinite) (hhi : hi.isFinite) (above : lo ≤ x) (below : x ≤ hi) :
    x.isFinite := by
  obtain ⟨loNumber, number, above⟩ := le_iff.1 above
  obtain ⟨-, hiNumber, below⟩ := le_iff.1 below
  refine (isFinite_iff_rank number).2 ⟨?_, ?_⟩
  · exact ((isFinite_iff_rank loNumber).1 hlo).1.trans_le above
  · exact below.trans_lt ((isFinite_iff_rank hiNumber).1 hhi).2

theorem isFinite_of_lt_of_lt (above : lo < x) (below : x < hi) : x.isFinite := by
  obtain ⟨-, number, above⟩ := lt_iff.1 above
  obtain ⟨-, -, below⟩ := lt_iff.1 below
  refine (isFinite_iff_rank number).2 ⟨?_, ?_⟩
  · exact (rank_infinity_le _).1.trans_lt above
  · exact below.trans_le (rank_infinity_le _).2

theorem pos_iff : 0 < x ↔
    (∃ m e positive, x.toModel.unpack = .finite .positive m e positive) ∨
    x.toModel.unpack = .infinity .positive := by
  rw [lt_iff]
  change UnpackedFloat.isNaN (.zero .positive) = false ∧ x.toModel.unpack.isNaN = false ∧
    rank (.zero .positive) < rank x.toModel.unpack ↔ _
  cases x.toModel.unpack with
  | notANumber | zero => simp [rank, UnpackedFloat.isNaN]
  | infinity s => cases s <;> simp [rank, UnpackedFloat.isNaN, Prod.Lex.toLex_lt_toLex]
  | finite s m e positive => cases s <;> simp [rank, UnpackedFloat.isNaN, Prod.Lex.toLex_lt_toLex,
      positive]

theorem neg_iff : x < 0 ↔
    (∃ m e positive, x.toModel.unpack = .finite .negative m e positive) ∨
    x.toModel.unpack = .infinity .negative := by
  rw [lt_iff]
  change x.toModel.unpack.isNaN = false ∧ UnpackedFloat.isNaN (.zero .positive) = false ∧
    rank x.toModel.unpack < rank (.zero .positive) ↔ _
  cases x.toModel.unpack with
  | notANumber | zero => simp [rank, UnpackedFloat.isNaN]
  | infinity s => cases s <;> simp [rank, UnpackedFloat.isNaN, Prod.Lex.toLex_lt_toLex]
  | finite s m e positive => cases s <;> simp [rank, UnpackedFloat.isNaN, Prod.Lex.toLex_lt_toLex,
      positive]

theorem rank_abs (u : UnpackedFloat) : rank u.abs = |rank u| := by
  have sign : u.abs = u ∨ u.abs = u.neg := by
    cases u with
    | notANumber => exact .inl rfl
    | infinity s | zero s | finite s =>
      cases s
      · exact .inr rfl
      · exact .inl rfl
  have nonneg : toLex (0, toLex (0, 0)) ≤ rank u.abs := by
    cases u <;> simp [rank, UnpackedFloat.abs, Prod.Lex.toLex_le_toLex]
  rcases sign with same | opposite
  · rw [same] at nonneg ⊢
    exact (abs_of_nonneg nonneg).symm
  · rw [opposite, rank_neg] at nonneg ⊢
    rw [← abs_neg]
    exact (abs_of_nonneg nonneg).symm

theorem mem_of_abs_le (h : x.abs ≤ y) : -y ≤ x ∧ x ≤ y := by
  obtain ⟨hx, hy, le⟩ := le_iff.1 h
  rw [isNaN_abs] at hx
  rw [unpack_abs, rank_abs] at le
  obtain ⟨lower, upper⟩ := abs_le.1 le
  rw [← rank_neg, ← unpack_neg] at lower
  exact ⟨le_iff.2 ⟨(isNaN_neg y).trans hy, hx, lower⟩, le_iff.2 ⟨hx, hy, upper⟩⟩

theorem clamp_mem (interval : lo ≤ hi) (hx : x.isNaN = false) :
    lo ≤ Scalar.clamp lo hi x ∧ Scalar.clamp lo hi x ≤ hi := by
  obtain ⟨hlo, hhi⟩ := isNaN_of_le interval
  unfold Scalar.clamp
  split
  next => exact ⟨SinglePrecision.le_refl hlo, interval⟩
  next above =>
    split
    next => exact ⟨interval, SinglePrecision.le_refl hhi⟩
    next below => exact ⟨SinglePrecision.le_of_not_lt hx hlo above,
      SinglePrecision.le_of_not_lt hhi hx below⟩

/-! ## NaN in, NaN out -/

theorem isNaN_iff : x.isNaN ↔ x.toModel.unpack = .notANumber := by
  change x.toModel.unpack.isNaN = true ↔ _
  cases x.toModel.unpack <;> simp [UnpackedFloat.isNaN]

/-- An operation that passes NaN on does so after rounding. -/
theorem isNaN_of_propagates {op : UnpackedFloat → UnpackedFloat → UnpackedFloat}
    (left : ∀ v, op .notANumber v = .notANumber) (right : ∀ u, op u .notANumber = .notANumber)
    (h : x.isNaN ∨ y.isNaN) :
    (Float32.ofModel (.pack (op x.toModel.unpack y.toModel.unpack))).isNaN := by
  rw [isNaN_iff, isNaN_iff] at h
  rw [isNaN_iff]
  rcases h with h | h
  · rw [h, left]
    rfl
  · rw [h, right]
    rfl

theorem isNaN_add (h : x.isNaN ∨ y.isNaN) : (x + y).isNaN :=
  isNaN_of_propagates (fun _ => rfl) (fun u => by cases u <;> rfl) h

theorem isNaN_sub (h : x.isNaN ∨ y.isNaN) : (x - y).isNaN :=
  isNaN_of_propagates (fun _ => rfl) (fun u => by cases u <;> rfl) h

theorem isNaN_mul (h : x.isNaN ∨ y.isNaN) : (x * y).isNaN :=
  isNaN_of_propagates (fun _ => rfl) (fun u => by cases u <;> rfl) h

theorem isNaN_div (h : x.isNaN ∨ y.isNaN) : (x / y).isNaN :=
  isNaN_of_propagates (fun _ => rfl) (fun u => by cases u <;> rfl) h

/-! ## Numbers in, numbers out -/

theorem isNaN_add_of_isFinite (hx : x.isFinite) (hy : y.isNaN = false) : (x + y).isNaN = false := by
  change x.toModel.unpack.isFinite = true at hx
  change y.toModel.unpack.isNaN = false at hy
  change (UnpackedFloat.unpack .binary32 (UnpackedFloat.pack .binary32
    (.add .binary32 x.toModel.unpack y.toModel.unpack))).isNaN = false
  rw [isNaN_unpack_pack]
  generalize x.toModel.unpack = u at hx
  generalize y.toModel.unpack = v at hy
  cases u with
  | notANumber => cases hx
  | infinity => cases hx
  | zero s =>
    cases v with
    | notANumber => cases hy
    | infinity => rfl
    | zero t => cases s <;> cases t <;> rfl
    | finite => rfl
  | finite s m e positive =>
    cases v with
    | notANumber => cases hy
    | infinity => rfl
    | zero => rfl
    | finite => exact isNaN_of_isFinite (isFinite_normalize _ _ _)

/-- A product is undefined only if a zero meets an infinity. -/
theorem isNaN_mul_of_isFinite (hx : x.isFinite) (hy : y.isNaN = false)
    (apart : y.isFinite ∨ 0 < x) : (x * y).isNaN = false := by
  rw [pos_iff] at apart
  change y.toModel.unpack.isFinite = true ∨ _ at apart
  change x.toModel.unpack.isFinite = true at hx
  change y.toModel.unpack.isNaN = false at hy
  change (UnpackedFloat.unpack .binary32 (UnpackedFloat.pack .binary32
    (.mul .binary32 x.toModel.unpack y.toModel.unpack))).isNaN = false
  rw [isNaN_unpack_pack]
  generalize x.toModel.unpack = u at hx apart
  generalize y.toModel.unpack = v at hy apart
  cases u with
  | notANumber => cases hx
  | infinity => cases hx
  | zero s =>
    cases v with
    | notANumber => cases hy
    | infinity =>
      rcases apart with finite | ⟨m, e, positive, number⟩ | infinite
      · cases finite
      · cases number
      · cases infinite
    | zero => rfl
    | finite => rfl
  | finite s m e positive =>
    cases v with
    | notANumber => cases hy
    | infinity => rfl
    | zero => rfl
    | finite => exact isNaN_of_isFinite (isFinite_roundWithAccuracy _ _ _ _)

/-! ## Finite results -/

theorem isFinite_of_unpackedAdd {format : Format} {u v : UnpackedFloat}
    (finite : (UnpackedFloat.add format u v).isFinite) : u.isFinite ∧ v.isFinite := by
  cases u with
  | notANumber => cases finite
  | infinity s =>
    cases v with
    | infinity t => cases s <;> cases t <;> cases finite
    | notANumber | zero | finite => cases finite
  | zero | finite =>
    cases v with
    | notANumber | infinity => cases finite
    | zero | finite => exact ⟨rfl, rfl⟩

/-- An operation that is finite only on finite numbers stays so after rounding. -/
theorem isFinite_of_strict {op : UnpackedFloat → UnpackedFloat → UnpackedFloat}
    (strict : ∀ u v, (op u v).isFinite → u.isFinite ∧ v.isFinite)
    (finite : (Float32.ofModel (.pack (op x.toModel.unpack y.toModel.unpack))).isFinite) :
    x.isFinite ∧ y.isFinite :=
  strict _ _ (isFinite_of_unpack_pack finite)

theorem isFinite_of_add (finite : (x + y).isFinite) : x.isFinite ∧ y.isFinite :=
  isFinite_of_strict (fun _ _ sum => isFinite_of_unpackedAdd sum) finite

theorem isFinite_of_sub (finite : (x - y).isFinite) : x.isFinite ∧ y.isFinite := by
  refine isFinite_of_strict (fun u v difference => ?_) finite
  rw [unpackedSub_eq] at difference
  obtain ⟨hu, hv⟩ := isFinite_of_unpackedAdd difference
  exact ⟨hu, by cases v <;> exact hv⟩

theorem isFinite_of_mul (finite : (x * y).isFinite) : x.isFinite ∧ y.isFinite := by
  refine isFinite_of_strict (fun u v product => ?_) finite
  cases u with
  | notANumber => cases product
  | infinity => cases v <;> cases product
  | zero | finite =>
    cases v with
    | notANumber | infinity => cases product
    | zero | finite => exact ⟨rfl, rfl⟩

end SinglePrecision

end GroundPlane
