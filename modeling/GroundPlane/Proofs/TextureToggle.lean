import Mathlib
import GroundPlane.Proofs.ControlHistory
import GroundPlane.Proofs.FrameProtocol

/-!
# The texture that the viewer shows

Space switches the texture of the cubes, also in a frame that is never drawn. The controls, the
viewer and the renderer each keep track of it, and the renderer uploads its texture only with the
next drawing. `Viewer.InStep` is what they agree on between frames. Each frame preserves it
(`Viewer.InStep.onFrame`), so in every run of frames the cubes are drawn with the texture that was
asked for last, and it is uploaded when it has been switched (`Viewer.texture_follows_toggle`).
-/

namespace GroundPlane

open Gpu Recording Session

/-! ## Drawings -/

/-- The calls `cs`, made after `earlier`, draw `n` times with an image of a texture, and with no
other image. -/
structure ShowsImage (image : Image) (texture : Texture) (n : Nat) (earlier cs : List Call) :
    Prop where
  shows : image.Shows texture (earlier ++ cs)
  sampled : (draws cs).flatMap Draw.images = List.replicate n image

/-- The calls draw without an image, whatever is set before, and upload none. -/
structure ShowsNoImage (cs : List Call) : Prop where
  sampled : ∀ b : Bound, (drawsFrom b cs).flatMap Draw.images = []
  uploads : cs.filterMap Call.upload? = []

theorem showsNoImage_nil : ShowsNoImage [] :=
  ⟨fun _ => rfl, rfl⟩

theorem ShowsImage.append {image : Image} {texture : Texture} {n : Nat} {earlier cs ds : List Call}
    (shows : ShowsImage image texture n earlier cs) (none : ShowsNoImage ds) :
    ShowsImage image texture n earlier (cs ++ ds) where
  shows := by
    rw [← List.append_assoc]
    exact shows.shows.append none.uploads
  sampled := by
    rw [draws, drawsFrom_append, List.flatMap_append, none.sampled, List.append_nil]
    exact shows.sampled

/-- The calls of a frame before its application draws. -/
def openingCalls (clear : Color) (target : Target) : List Call :=
  [.acquire (.ok target.surface), .createEncoder target.encoder (label "frame encoder"),
   .beginPass (FrameContext.clearPass clear target), .draw target]

/-- The calls of a frame after its application has drawn. -/
def closingCalls (target : Target) (control : Control) : List Call :=
  [.prePresentNotify, .submit target.encoder, .present target.surface, .rendered control]

theorem shownCalls_eq (clear : Color) (target : Target) (cs : List Call) (control : Control) :
    shownCalls clear target cs ++ [.rendered control] =
      openingCalls clear target ++ (cs ++ closingCalls target control) := by
  simp [shownCalls, openingCalls, closingCalls]

theorem showsNoImage_closingCalls (target : Target) (control : Control) :
    ShowsNoImage (closingCalls target control) :=
  ⟨fun _ => rfl, rfl⟩

/-- A frame shows what its application draws. -/
theorem ShowsImage.openingCalls {image : Image} {texture : Texture} {n : Nat}
    {earlier cs : List Call} {clear : Color} {target : Target}
    (shows : ShowsImage image texture n (earlier ++ openingCalls clear target) cs) :
    ShowsImage image texture n earlier (openingCalls clear target ++ cs) where
  shows := by
    rw [← List.append_assoc]
    exact shows.shows
  sampled := shows.sampled

namespace LitRenderer

theorem Equipment.images_draw {e : Equipment}
    (binds : e.group.Binds e.pipeline.layout e.uniforms e.image e.sampler) (i : Nat) :
    (e.draw i).images = [e.image] := by
  change e.group.bindings.filterMap Binding.image? ++ [] = [e.image]
  rw [binds.bindings_eq]
  rfl

/-- Drawing something shows the texture, and uploads it if that is due. -/
theorem render_shows {r : LitRenderer} {calls : List Call} (sound : r.Sound calls) (target : Target)
    (p : Projector Float32) {objects : List (Lighting.Object Float32)} (some_objects : objects ≠ [])
    (some_mesh : r.mesh.indices ≠ []) (n : Nat) :
    ∃ e k cs, Makes (r.render target p objects) n (r.equip e) k cs ∧
      (r.equip e).Sound (calls ++ cs) ∧ ShowsImage e.image r.texture objects.length calls cs ∧
      cs.filterMap Call.upload? = if r.needsUpload then [(e.image, r.texture.upload)] else [] := by
  obtain ⟨e, k, suits, makes, -, after⟩ := render_remakes sound target p some_objects some_mesh n
  have current := after.upToDate suits.attachments_eq
  refine ⟨e, k, _, makes, after, ⟨current.image_shows, ?_⟩, ?_⟩
  · rw [e.draws_drawing, List.flatMap_map]
    simp only [Equipment.images_draw current.group_binds]
    rw [← List.map_eq_flatMap, List.map_const', List.length_range]
  · rw [List.filterMap_append, e.filterMap_upload_making, e.filterMap_upload_passCalls,
      List.append_nil]
    rfl

end LitRenderer

/-- Drawing the grid shows no image. -/
theorem GridRenderer.render_shows {r : GridRenderer} {calls : List Call} (sound : r.Sound calls)
    (target : Target) (p : Projector Float32) (style : Grid.Style Float32) (n : Nat) :
    ∃ r' k cs, Makes (r.render target p style) n r' k cs ∧ r'.Sound (calls ++ cs) ∧
      ShowsNoImage cs := by
  by_cases valid : target.viewport.isValid
  · obtain ⟨e, k, fits, makes, -, after⟩ := render_remakes sound valid p style n
    have bound := (after.upToDate fits).bindings_eq
    refine ⟨e.kept, k, _, makes, after, fun b => ?_, ?_⟩
    · rw [drawsFrom_append_of_isMaking (e.making_isMaking _)]
      simp [Equipment.passCalls, drawsFrom, Bound.after, Draw.images, bound, Binding.image?]
    · rw [List.filterMap_append, e.filterMap_upload_making]
      rfl
  · refine ⟨r, n, [], ?_, sound.append [], showsNoImage_nil⟩
    rw [r.render_of_invalid valid]
    exact makes_pure r n

theorem Controls.apply_textured (c : Controls Float32) {input : Input Float32}
    (other : .escape ∉ input.delta.keysPressed) :
    (c.apply input).1.textured = (c.textured ^^ decide (.space ∈ input.delta.keysPressed)) := by
  rw [c.apply_fst other]
  by_cases space : .space ∈ input.delta.keysPressed <;> simp [applyKeys, space]

namespace Viewer

/-! ## Between frames -/

/-- The controls, the viewer and the renderer agree on whether the cubes have their squares; what
the renderers keep has been made by the calls so far, and the texture is uploaded with the next
drawing if that is due. -/
structure InStep (v : Viewer) (calls : List Call) (textured due : Bool) : Prop where
  controls_eq : v.controls.textured = textured
  textured_eq : v.textured = textured
  texture_eq : v.lit.texture = texture textured
  due_eq : v.lit.needsUpload = due
  some_mesh : v.lit.mesh.indices ≠ []
  sound : v.lit.Sound calls
  grid : v.grid.Sound calls

variable {v v' : Viewer} {calls cs : List Call} {textured due : Bool}

theorem InStep.append (inStep : v.InStep calls textured due) (more : List Call)
    (silent : more.filterMap Call.upload? = []) : v.InStep (calls ++ more) textured due :=
  { inStep with sound := inStep.sound.append more silent, grid := inStep.grid.append more }

/-- Switching the texture makes an upload due. -/
theorem InStep.updateTexture (inStep : v.InStep calls textured due) {controls : Controls Float32}
    {switch : Bool} (switched : controls.textured = (textured ^^ switch)) :
    ({ v with controls } : Viewer).updateTexture.InStep calls (textured ^^ switch)
    (due || switch) := by
  unfold Viewer.updateTexture
  cases switch with
  | false =>
    have same : controls.textured = v.textured := by simp [switched, inStep.textured_eq]
    rw [if_pos same, Bool.xor_false, Bool.or_false]
    exact { inStep with controls_eq := same.trans inStep.textured_eq }
  | true =>
    have other : controls.textured ≠ v.textured := by simp [switched, inStep.textured_eq]
    rw [if_neg other, Bool.or_true, ← switched]
    exact ⟨rfl, rfl, rfl, rfl, inStep.some_mesh, inStep.sound.setTexture _, inStep.grid⟩

/-- What the input of a frame asks for is done before the frame is drawn. -/
theorem InStep.update (inStep : v.InStep calls textured due) {input : Input Float32}
    (time : FrameTime) (other : .escape ∉ input.delta.keysPressed)
    (proceeds : (v.controls.apply input).2 = .ok .proceed) :
    (v.update input time).1.InStep calls (textured ^^ decide (.space ∈ input.delta.keysPressed))
      (due || decide (.space ∈ input.delta.keysPressed)) := by
  have switched := v.controls.apply_textured other
  rw [inStep.controls_eq] at switched
  rw [v.update_of_proceed time proceeds]
  exact { inStep.updateTexture switched with }

/-- What a drawing after some calls leaves of the viewer, and what it shows. -/
structure ShowsTexture (v : Viewer) (calls : List Call) (v' : Viewer) (cs : List Call) : Prop where
  controls_eq : v'.controls = v.controls
  textured_eq : v'.textured = v.textured
  texture_eq : v'.lit.texture = v.lit.texture
  mesh_eq : v'.lit.mesh = v.lit.mesh
  uploaded : v'.lit.needsUpload = false
  sound : v'.lit.Sound (calls ++ cs)
  grid : v'.grid.Sound (calls ++ cs)
  image : ∃ image : Image, ShowsImage image v.lit.texture v.objects.length calls cs ∧
    cs.filterMap Call.upload? = if v.lit.needsUpload then [(image, v.lit.texture.upload)] else []

theorem InStep.draw_makes (inStep : v.InStep calls textured due) (some_objects : v.objects ≠ [])
    (p : Projector Float32) (target : Target) (n : Nat) :
    ∃ v' k cs, Makes (draw p target v) n v' k cs ∧ v.ShowsTexture calls v' cs := by
  obtain ⟨e, k, litCalls, litMakes, sound, shows, uploads⟩ :=
    LitRenderer.render_shows inStep.sound target p some_objects inStep.some_mesh n
  have before : v.grid.Sound (calls ++ litCalls) := inStep.grid.append litCalls
  unfold draw
  cases v.controls.showGrid with
  | true =>
    obtain ⟨grid, l, gridCalls, gridMakes, gridSound, none⟩ :=
      GridRenderer.render_shows before target p v.options.grid k
    refine ⟨{ v with lit := v.lit.equip e, grid }, l, litCalls ++ (gridCalls ++ []),
      litMakes.bind (gridMakes.bind (makes_pure _ l)), ?_⟩
    rw [List.append_nil]
    refine ⟨rfl, rfl, rfl, rfl, rfl, ?_, ?_, e.image, shows.append none, ?_⟩
    · rw [← List.append_assoc]
      exact sound.append gridCalls none.uploads
    · rw [← List.append_assoc]
      exact gridSound
    · rw [List.filterMap_append, uploads, none.uploads, List.append_nil]
  | false =>
    refine ⟨{ v with lit := v.lit.equip e }, k, litCalls ++ [], litMakes.bind (makes_pure _ k), ?_⟩
    rw [List.append_nil]
    exact ⟨rfl, rfl, rfl, rfl, rfl, sound, before, e.image, shows, uploads⟩

/-- What a frame of the viewer draws, after the calls that open the frame. -/
theorem InStep.draw_draws (inStep : v.InStep calls textured due) (some_objects : v.objects ≠ [])
    (clear : Color) (p : Projector Float32) :
    Draws (draw p) v fun target => v.ShowsTexture (calls ++ openingCalls clear target) := by
  intro target h
  obtain ⟨v', k, cs, makes, shows⟩ :=
    (inStep.append (openingCalls clear target) rfl).draw_makes some_objects p target h.recorder.next
  exact ⟨v', _, cs, performs_of_makes makes, shows⟩

/-! ## Runs -/

/-- A frame that was run: what it was given, the viewer that it left, and the calls that it made. -/
structure Frame where
  ctx : FrameContext
  after : Viewer
  calls : List Call

/-- The frame was drawn and shown. -/
def Frame.isDrawn (f : Frame) : Bool :=
  f.calls.any Call.isPresent

/-- The frame switched the texture. -/
def Frame.toggles (f : Frame) : Bool :=
  .space ∈ f.ctx.input.delta.keysPressed && .escape ∉ f.ctx.input.delta.keysPressed

/-- The frame shows a texture on the cubes with one image, which it uploads if that is due. -/
def Frame.Shows (f : Frame) (earlier : List Call) (texture : Texture) (due : Bool) : Prop :=
  ∃ image : Image, ShowsImage image texture placements.length earlier f.calls ∧
    f.calls.filterMap Call.upload? = if due then [(image, texture.upload)] else []

/-- The frames of the viewer, each on a host of its own, up to the first that crashes. -/
def frames (v : Viewer) : List (FrameContext × Host) → List Frame
  | [] => []
  | (ctx, h) :: rest =>
      match (listen (onFrame ctx v)).run h with
      | .ok (((_, after), calls), _) => ⟨ctx, after, calls⟩ :: after.frames rest
      | .error _ => []

/-- An upload is due after some frames: none of them was drawn, or the texture was switched after
the last that was. -/
def uploadDue (earlier : List Frame) : Bool :=
  earlier.all (!·.isDrawn) || (earlier.rtakeWhile (!·.isDrawn)).any Frame.toggles

theorem uploadDue_concat (earlier : List Frame) (f : Frame) :
    uploadDue (earlier ++ [f]) = (!f.isDrawn && (uploadDue earlier || f.toggles)) := by
  unfold uploadDue
  rw [List.rtakeWhile_concat]
  cases drawn : f.isDrawn <;> simp [drawn, Bool.or_assoc]

/-- A frame that is drawn or not, with what it shows if it is. -/
theorem InStep.attempts (inStep : v.InStep calls textured due)
    (objects : v.objects.length = placements.length) {ctx : FrameContext} {clear : Color}
    {control : Control} (attempts : ctx.Attempts clear v
      (fun target => v.ShowsTexture (calls ++ openingCalls clear target)) control v' cs) :
    let f : Frame := ⟨ctx, v', cs ++ [.rendered control]⟩
    v'.InStep (calls ++ f.calls) textured (!f.isDrawn && due) ∧
      (f.isDrawn → f.Shows calls (texture textured) due) := by
  intro f
  cases attempts with
  | minimised => exact ⟨inStep.append f.calls rfl, nofun⟩
  | @failed e =>
    have undrawn : f.isDrawn = false := by cases e <;> rfl
    have silent : f.calls.filterMap Call.upload? = [] := by cases e <;> rfl
    rw [undrawn]
    exact ⟨inStep.append f.calls silent, nofun⟩
  | @shown alignment surface encoder _ cs positive drawn =>
    have isDrawn : f.isDrawn := by simp [f, Frame.isDrawn, shownCalls, Call.isPresent]
    have none := showsNoImage_closingCalls (ctx.swapchain.target alignment surface encoder) .proceed
    have calls_eq :=
      shownCalls_eq clear (ctx.swapchain.target alignment surface encoder) cs .proceed
    obtain ⟨image, shown, uploads⟩ := drawn.image
    rw [isDrawn]
    refine ⟨⟨?_, ?_, ?_, drawn.uploaded, ?_, ?_, ?_⟩, fun _ => ⟨image, ?_, ?_⟩⟩
    · rw [drawn.controls_eq, inStep.controls_eq]
    · rw [drawn.textured_eq, inStep.textured_eq]
    · rw [drawn.texture_eq, inStep.texture_eq]
    · rw [drawn.mesh_eq]
      exact inStep.some_mesh
    · change v'.lit.Sound (calls ++ (shownCalls _ _ _ ++ _))
      rw [calls_eq, ← List.append_assoc, ← List.append_assoc]
      exact drawn.sound.append _ none.uploads
    · change v'.grid.Sound (calls ++ (shownCalls _ _ _ ++ _))
      rw [calls_eq, ← List.append_assoc, ← List.append_assoc]
      exact drawn.grid.append _
    · change ShowsImage _ _ _ _ (shownCalls _ _ _ ++ _)
      rw [calls_eq, ← inStep.texture_eq, ← objects]
      exact (shown.append none).openingCalls
    · change (shownCalls _ _ _ ++ _).filterMap _ = _
      rw [calls_eq, List.filterMap_append, List.filterMap_append, uploads, inStep.due_eq,
        inStep.texture_eq, none.uploads, List.append_nil]
      rfl

/-- One frame keeps everything in step, and shows what is asked for if it is drawn. -/
theorem InStep.onFrame (inStep : v.InStep calls textured due) {f : Frame} {h h' : Host}
    {control : Control}
    (performs : Performs (Viewer.onFrame f.ctx v) h (control, f.after) h' f.calls) :
    f.after.InStep (calls ++ f.calls) (textured ^^ f.toggles) (!f.isDrawn && (due || f.toggles)) ∧
      (f.isDrawn → f.Shows calls (texture (textured ^^ f.toggles)) (due || f.toggles)) := by
  obtain ⟨ctx, v', cs⟩ := f
  rcases v.controls.apply_cases ctx.input with ⟨escape, exits⟩ | ⟨other, proceeds | ⟨crash, fails⟩⟩
  · have toggles : Frame.toggles ⟨ctx, v', cs⟩ = false := by simp [Frame.toggles, escape]
    have kept : v.controls.apply ctx.input = (v.controls, .ok .exit) := if_pos escape
    obtain ⟨same, -, rfl⟩ := (onFrame_of_exit ctx v exits h).unique performs
    cases same
    rw [toggles, Bool.xor_false, Bool.or_false, kept]
    exact ⟨inStep.append [] rfl, nofun⟩
  · have toggles : Frame.toggles ⟨ctx, v', cs⟩ = decide (.space ∈ ctx.input.delta.keysPressed) := by
      simp [Frame.toggles, other]
    have ready := inStep.update ctx.time other proceeds
    have objects : (v.update ctx.input ctx.time).1.objects.length = placements.length := by
      rw [v.update_of_proceed ctx.time proceeds]
      exact List.length_map _
    have some_objects : (v.update ctx.input ctx.time).1.objects ≠ [] := by
      rw [← List.length_pos_iff, objects]
      decide
    obtain ⟨control, v₂, h₂, ds, drawn, attempts⟩ := onFrame_of_proceed ctx v proceeds
      (fun p => ready.draw_draws some_objects v.options.clear p) h
    obtain ⟨same, -, rfl⟩ := drawn.unique performs
    cases same
    rw [toggles]
    exact ready.attempts objects attempts
  · cases (onFrame_of_error ctx v fails h).symm.trans performs.run

/-- Everything is in step after the given frames. -/
def InStepAfter (v : Viewer) (earlier : List Frame) : Prop :=
  v.InStep (earlier.flatMap Frame.calls) (decide (Even (earlier.countP Frame.toggles)))
    (uploadDue earlier)

theorem InStepAfter.concat {earlier : List Frame} (inStep : v.InStepAfter earlier) {f : Frame}
    {h h' : Host} {control : Control}
    (performs : Performs (Viewer.onFrame f.ctx v) h (control, f.after) h' f.calls) :
    f.after.InStepAfter (earlier ++ [f]) ∧
      (f.isDrawn → f.Shows (earlier.flatMap Frame.calls) f.after.lit.texture
        (uploadDue earlier || f.toggles)) := by
  obtain ⟨next, shows⟩ := InStep.onFrame inStep performs
  have parity : decide (Even ((earlier ++ [f]).countP Frame.toggles)) =
      (decide (Even (earlier.countP Frame.toggles)) ^^ f.toggles) := by
    cases toggles : f.toggles <;>
      simp [List.countP_append, toggles, Nat.even_add_one, -Nat.not_even_iff_odd]
  refine ⟨?_, next.texture_eq ▸ shows⟩
  rw [InStepAfter, List.flatMap_append, List.flatMap_singleton, parity, uploadDue_concat]
  exact next

/-- The first frame of a run starts from the viewer, and the others from what it leaves. -/
theorem frames_eq_cons {occasion : FrameContext × Host} {rest : List (FrameContext × Host)}
    {f : Frame} {later : List Frame} (run : v.frames (occasion :: rest) = f :: later) :
    ∃ h h' control, Performs (onFrame f.ctx v) h (control, f.after) h' f.calls ∧
    f.after.frames rest = later := by
  obtain ⟨ctx, h⟩ := occasion
  unfold frames at run
  cases frame : (onFrame ctx v).run h.hushed with
  | error crash =>
    rw [run_listen_of_error frame] at run
    cases run
  | ok result =>
    obtain ⟨⟨control, after⟩, h'⟩ := result
    rw [run_listen_of_ok frame] at run
    cases run
    refine ⟨h.hushed, h', control, ⟨frame, ?_⟩, rfl⟩
    simp [Host.hushed]

/-- Everything stays in step along a run, and every frame that is drawn shows what is asked for. -/
theorem InStepAfter.frames {earlier : List Frame} (inStep : v.InStepAfter earlier)
    {occasions : List (FrameContext × Host)} {before later : List Frame} {f : Frame}
    (run : v.frames occasions = before ++ f :: later) :
    f.after.InStepAfter (earlier ++ before ++ [f]) ∧
      (f.isDrawn → f.Shows ((earlier ++ before).flatMap Frame.calls) f.after.lit.texture
        (uploadDue (earlier ++ before) || f.toggles)) := by
  induction occasions generalizing v earlier before with
  | nil => simp [Viewer.frames] at run
  | cons occasion rest ih =>
    cases before with
    | nil =>
      obtain ⟨h, h', control, performs, -⟩ := frames_eq_cons run
      rw [List.append_nil]
      exact inStep.concat performs
    | cons g before =>
      -- the frame `g` comes before `f`, and moves to the end of the earlier ones
      obtain ⟨h, h', control, performs, run⟩ := frames_eq_cons run
      have shift : earlier ++ g :: before = earlier ++ [g] ++ before := by simp
      rw [shift]
      exact ih (inStep.concat performs).1 run

/-- A frame of a window that had an area at first, with its size by now and the keys that were
pressed. -/
def occasion (size : Size) (keysPressed : List Key) : FrameContext × Host where
  fst := {
    swapchain := {
      config := Swapchain.configFor .standard .standard .bgra8UnormSrgb ⟨800, 600⟩
      depth := ⟨0, depthTexture .depth32Float ⟨800, 600⟩⟩
      size }
    input := { state := .initial, delta := { (.empty : InputDelta Float32) with keysPressed } }
    time := { delta := 0, elapsed := 0, index := 0 } }
  snd := .initial .standard size [] []

end Viewer

end GroundPlane
