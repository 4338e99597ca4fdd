import Mathlib
import GroundPlane.Viewer.Controls
import GroundPlane.Proofs.PowerRange

/-!
# The orbit camera stays within its limits

In single precision, no drag and no turn of the wheel takes the camera past its limits, however
large it is, and none leaves a NaN in it (`orbit_stays_within_limits`). A product of the camera's
distance with a power may overflow, but the distance is finite and positive, so that it never meets
an infinity as a zero.
-/

namespace GroundPlane

open Float.Model Rounding SinglePrecision

/-- What is used of the elementary functions: the value of a quarter turn, and that a power of a
positive finite number is not NaN. -/
structure Elementary.IsSound (e : Elementary Float32) : Prop where
  quarterTurn : e.quarterTurn = (1.5707963267948966 : Float32)
  pow : ∀ {x y : Float32}, x.isFinite → 0 < x → y.isNaN = false → (e.pow x y).isNaN = false

namespace SinglePrecision

/-- Twice a positive number may be infinite, but not zero. -/
theorem double_pos {x : Float32} (positive : 0 < x) : 0 < x * 2.0 := by
  have two : (2.0 : Float32).toModel.unpack = .finite .positive (2 ^ 23) (-22) (by decide) := rfl
  have product :
      (x * 2.0).toModel.unpack = UnpackedFloat.unpack .binary32 (UnpackedFloat.pack .binary32
    (.mul .binary32 x.toModel.unpack (2.0 : Float32).toModel.unpack)) := rfl
  rw [pos_iff, product]
  rcases pos_iff.1 positive with ⟨m, e, hm, unpacked⟩ | infinite
  · have finite : x.isFinite := by
      change x.toModel.unpack.isFinite = true
      rw [unpacked]
      rfl
    have bounded := singleAtMost_of_isFinite finite
    have doubled := Bounded.mul bounded (show SingleAtMost 1 2.0 by decide +kernel) (by decide)
    unfold SingleAtMost at bounded
    rw [unpacked] at bounded doubled ⊢
    rw [two] at doubled ⊢
    have log : (m * 2 ^ 23).log2 = m.log2 + 23 := by
      rw [← Nat.shiftLeft_eq, log2_shiftLeft hm.ne']
    have place := bounded.1
    have long : e + -22 ≤ lastPlace .binary32 (m * 2 ^ 23) (e + -22) := by
      rw [lastPlace_eq] at place ⊢
      omega
    have least : Format.binary32.minExponent ≤ (m * 2 ^ 23).log2 + (e + -22) := by
      rw [lastPlace_eq] at place
      omega
    obtain ⟨m', e', hm', rounded⟩ := exists_finite_of_roundWithAccuracy .binary32 .positive
      (show m * 2 ^ 23 ≠ 0 by omega) long least
    have scaled : UnpackedFloat.mul .binary32 (.finite .positive m e hm)
        (.finite .positive (2 ^ 23) (-22) (by decide)) = .finite .positive m' e' hm' := rounded
    rw [scaled] at doubled ⊢
    rcases unpack_pack_cases doubled with number | infinite
    · exact .inl ⟨m', e', hm', number⟩
    · exact .inr infinite
  · rw [infinite, two]
    exact .inr rfl

end SinglePrecision

namespace OrbitCamera

theorem farthest_isFinite {c : OrbitCamera Float32} (far : c.far.isFinite) :
    c.farthest.isFinite := by
  have half : SingleAtMost (-1) 0.5 := by decide +kernel
  exact ((singleAtMost_of_isFinite far).mul half (by decide)).isFinite

theorem scale?_eq_none_iff {c : OrbitCamera Float32} {factor : Float32} :
    c.scale? factor = none ↔ ¬ c.near * 2.0 ≤ c.far * 0.5 := by
  change (if c.near * 2.0 ≤ c.far * 0.5 then _ else none) = none ↔ _
  split <;> simp_all

variable [e : Elementary Float32]

/-- A camera to come home to: it is within its limits, and its speeds are sensible. -/
structure Suits (home : OrbitCamera Float32) : Prop where
  pitch : home.pitch.abs ≤ pitchLimit
  near : 0 < home.near
  far : home.far.isFinite
  nearest : home.near * 2.0 ≤ home.distance
  farthest : home.distance ≤ home.far * 0.5
  rotateSpeed : home.rotateSpeed.isFinite
  zoomFinite : (1 - home.zoomSpeed).isFinite
  zoomPositive : 0 < 1 - home.zoomSpeed

/-- The camera differs from the one at home in its angles and its distance only, and these are
numbers within the limits. -/
structure WithinLimits (home c : OrbitCamera Float32) : Prop where
  pitch : -pitchLimit ≤ c.pitch ∧ c.pitch ≤ pitchLimit
  distance : home.near * 2.0 ≤ c.distance ∧ c.distance ≤ home.far * 0.5
  defined : c.pitch.isNaN = false ∧ c.distance.isNaN = false
  kept : c = { home with yaw := c.yaw, pitch := c.pitch, distance := c.distance }

variable {home c : OrbitCamera Float32}

theorem pitchLimit_isFinite (sound : e.IsSound) : (pitchLimit : Float32).isFinite := by
  unfold pitchLimit
  rw [sound.quarterTurn]
  decide +kernel

theorem neg_pitchLimit_le (sound : e.IsSound) : -pitchLimit ≤ (pitchLimit : Float32) := by
  unfold pitchLimit
  rw [sound.quarterTurn]
  decide +kernel

theorem WithinLimits.of_mem (pitch : -pitchLimit ≤ c.pitch ∧ c.pitch ≤ pitchLimit)
    (distance : home.near * 2.0 ≤ c.distance ∧ c.distance ≤ home.far * 0.5)
    (kept : c = { home with yaw := c.yaw, pitch := c.pitch, distance := c.distance }) :
    home.WithinLimits c :=
  ⟨pitch, distance, ⟨(isNaN_of_le pitch.2).1, (isNaN_of_le distance.2).1⟩, kept⟩

theorem Suits.withinLimits (suits : home.Suits) : home.WithinLimits home :=
  .of_mem (mem_of_abs_le suits.pitch) ⟨suits.nearest, suits.farthest⟩ rfl

theorem Suits.nearest_le_farthest (suits : home.Suits) : home.near * 2.0 ≤ home.far * 0.5 :=
  SinglePrecision.le_trans suits.nearest suits.farthest

/-- The pitch is finite, so that adding to it gives a number, even if it overflows. -/
theorem WithinLimits.turn (sound : e.IsSound) (suits : home.Suits) (within : home.WithinLimits c)
    (dx : Float32) {dy : Float32} (finite : dy.isFinite) : home.WithinLimits (c.turn dx dy) := by
  have limit := pitchLimit_isFinite sound
  have pitch : c.pitch.isFinite :=
    isFinite_of_mem ((isFinite_neg _).trans limit) limit within.pitch.1 within.pitch.2
  have speed : c.rotateSpeed.isFinite := by
    rw [within.kept]
    exact suits.rotateSpeed
  have moved : (dy * c.rotateSpeed).isNaN = false :=
    isNaN_mul_of_isFinite finite (isNaN_of_isFinite speed) (.inl speed)
  refine .of_mem (clamp_mem (neg_pitchLimit_le sound) (isNaN_add_of_isFinite pitch moved))
    within.distance ?_
  rw [OrbitCamera.turn, within.kept]

/-- The distance is finite and positive, so that scaling it by anything but NaN gives a number. -/
theorem WithinLimits.scale? (suits : home.Suits) (within : home.WithinLimits c) {factor : Float32}
    (number : factor.isNaN = false) : ∃ c', c.scale? factor = some c' ∧ home.WithinLimits c' := by
  obtain ⟨lower, upper⟩ := within.distance
  have positive : 0 < home.near * 2.0 := double_pos suits.near
  have interval := suits.nearest_le_farthest
  have distance : 0 < c.distance := SinglePrecision.lt_of_lt_of_le positive lower
  have finite : c.distance.isFinite :=
    isFinite_of_mem rfl (farthest_isFinite suits.far) (SinglePrecision.le_of_lt distance) upper
  have scaled : (c.distance * factor).isNaN = false :=
    isNaN_mul_of_isFinite finite number (.inr distance)
  have nearest : c.nearest = home.near * 2.0 := by
    rw [within.kept]
    rfl
  have farthest : c.farthest = home.far * 0.5 := by
    rw [within.kept]
    rfl
  refine ⟨{ c with distance := Scalar.clamp c.nearest c.farthest (c.distance * factor) }, if_pos ?_,
    .of_mem within.pitch ?_ ?_⟩
  · rw [nearest, farthest]
    exact interval
  · rw [nearest, farthest]
    exact clamp_mem interval scaled
  · rw [within.kept]

end OrbitCamera

namespace Controls

variable [e : Elementary Float32] {home : OrbitCamera Float32} {c : Controls Float32}

/-- The camera keeps the limits of the one to come home to. -/
structure Keeps (home : OrbitCamera Float32) (c : Controls Float32) : Prop where
  returns : c.home = home
  camera : home.WithinLimits c.camera

theorem Keeps.applyKeys (suits : home.Suits) (keeps : c.Keeps home) (pressed : List Key) :
    (c.applyKeys pressed).Keeps home := by
  refine ⟨keeps.returns, ?_⟩
  change home.WithinLimits (if .r ∈ pressed then c.home else c.camera)
  split
  · rw [keeps.returns]
    exact suits.withinLimits
  · exact keeps.camera

theorem Keeps.applyDrag (sound : e.IsSound) (suits : home.Suits) (keeps : c.Keeps home)
    {input : Input Float32}
    (finite : input.delta.motion.y.isFinite) : (c.applyDrag input).Keeps home := by
  unfold Controls.applyDrag
  split
  · exact ⟨keeps.returns, keeps.camera.turn sound suits _ finite⟩
  · exact keeps

theorem Keeps.applyWheel (sound : e.IsSound) (suits : home.Suits) (keeps : c.Keeps home)
    {lines : Float32} (number : lines.isNaN = false) :
    (c.applyWheel lines).1.Keeps home ∧ (c.applyWheel lines).2 = .ok .proceed := by
  unfold Controls.applyWheel
  split
  next =>
    have base : c.camera.zoomSpeed = home.zoomSpeed := by rw [keeps.camera.kept]
    have power : (e.pow (1 - c.camera.zoomSpeed) lines).isNaN = false := by
      rw [base]
      exact sound.pow suits.zoomFinite suits.zoomPositive number
    obtain ⟨camera, zoomed, within⟩ := keeps.camera.scale? suits power
    have moved : c.camera.zoom? lines = some camera := zoomed
    rw [moved]
    exact ⟨⟨keeps.returns, within⟩, rfl⟩
  next => exact ⟨keeps, rfl⟩

/-- One input keeps the limits, and does not fail. -/
theorem Keeps.apply (sound : e.IsSound) (suits : home.Suits) (keeps : c.Keeps home)
    {input : Input Float32} (finite : input.delta.motion.y.isFinite)
    (number : input.delta.wheel.isNaN = false) :
    (c.apply input).1.Keeps home ∧ ∃ control, (c.apply input).2 = .ok control := by
  unfold Controls.apply
  split
  next => exact ⟨keeps, _, rfl⟩
  next =>
    obtain ⟨kept, proceeds⟩ :=
      ((keeps.applyKeys suits input.delta.keysPressed).applyDrag sound suits finite).applyWheel
      sound suits number
    exact ⟨kept, _, proceeds⟩

theorem Keeps.foldl (sound : e.IsSound) (suits : home.Suits) {inputs : List (Input Float32)}
    (usual : ∀ i ∈ inputs, i.delta.motion.y.isFinite ∧ i.delta.wheel.isNaN = false)
    (keeps : c.Keeps home) : (inputs.foldl (fun c i => (c.apply i).1) c).Keeps home := by
  induction inputs generalizing c with
  | nil => exact keeps
  | cons input inputs ih =>
    obtain ⟨⟨finite, number⟩, rest⟩ := List.forall_mem_cons.1 usual
    exact ih rest (keeps.apply sound suits finite number).1

end Controls

theorem elementary_isSound : Elementary.IsSound instElementaryFloat32 :=
  ⟨rfl, Power.isNaN_pow⟩

/-- The running program's elementary functions are sound. With any sound ones, let a session start
from a home camera that is within its limits, and let every input have a finite vertical motion and
a wheel that is not NaN. Then each input is taken without failing, and leaves the camera within the
limits of the one at home. For any camera, a turn of the wheel fails just if the allowed distances
form no interval, and then it changes nothing. -/
theorem orbit_stays_within_limits :
    Elementary.IsSound instElementaryFloat32 ∧
    (∀ [e : Elementary Float32],
      e.IsSound → ∀ (home : OrbitCamera Float32) (normals : NormalSource), home.Suits →
      ∀ (earlier : List (Input Float32)) (input : Input Float32),
        (∀ i ∈ earlier ++ [input], i.delta.motion.y.isFinite ∧ i.delta.wheel.isNaN = false) →
        let before := earlier.foldl (fun c i => (c.apply i).1) (Controls.ofHome home normals)
        (∃ control, (before.apply input).2 = .ok control) ∧
        home.WithinLimits (before.apply input).1.camera) ∧
    ∀ [Elementary Float32] (c : OrbitCamera Float32) (lines : Float32) (bits : UInt32),
      (c.zoom? lines = none ↔ ¬ c.near * 2.0 ≤ c.far * 0.5) ∧
      (c.zoomBits? bits = none ↔ ¬ c.near * 2.0 ≤ c.far * 0.5) ∧
      ∀ controls : Controls Float32, controls.camera = c → lines != 0 → c.zoom? lines = none →
        controls.applyWheel lines = (controls, .error .zoomRange) := by
  refine ⟨elementary_isSound, fun {e} sound home normals suits earlier input usual => ?_,
    fun c lines bits => ?_⟩
  · rw [List.forall_mem_append, List.forall_mem_singleton] at usual
    obtain ⟨before, finite, number⟩ := usual
    have start : (Controls.ofHome home normals).Keeps home := ⟨rfl, suits.withinLimits⟩
    obtain ⟨kept, proceeds⟩ := (start.foldl sound suits before).apply sound suits finite number
    exact ⟨proceeds, kept.camera⟩
  · refine ⟨OrbitCamera.scale?_eq_none_iff, OrbitCamera.scale?_eq_none_iff, ?_⟩
    rintro controls rfl moved fails
    unfold Controls.applyWheel
    rw [if_pos moved, fails]

/-- The left button is held over a drag of `3 · 10 ^ 38` pixels while the wheel turns infinitely
far. -/
def flung : Input Float32 where
  state := { (.initial : InputState Float32) with buttons := [.left] }
  delta :=
    { (.empty : InputDelta Float32) with motion := ⟨0, 3.0e38⟩, wheel := Float32.ofBits 0x7f800000 }

theorem orbit_stays_within_limits_flung :
    OrbitCamera.standard.Suits ∧ flung.delta.motion.y.isFinite ∧ flung.delta.wheel.isNaN = false ∧
      OrbitCamera.standard.WithinLimits
        (((Controls.ofHome .standard .vertex).apply flung).1.apply flung).1.camera := by
  have suits : OrbitCamera.standard.Suits := by
    constructor <;> decide +kernel
  have usual : flung.delta.motion.y.isFinite ∧ flung.delta.wheel.isNaN = false := by decide +kernel
  refine ⟨suits, usual.1, usual.2, ?_⟩
  refine (orbit_stays_within_limits.2.1 elementary_isSound .standard .vertex suits
    [flung] flung ?_).2
  exact List.forall_mem_cons.2 ⟨usual, List.forall_mem_singleton.2 usual⟩

end GroundPlane
