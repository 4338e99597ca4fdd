import Mathlib
import GroundPlane.Proofs.ControlHistory
import GroundPlane.Proofs.Vector

/-!
# Travel of the pointer

The motion of the pointer is counted frame by frame, from a position that outlasts the frames. Over
a whole history nothing of it is lost and nothing is counted twice: the motions of all frames add up
to the way from the first to the last position of each stay in the window, wherever the frames begin
(`motion_telescopes`). This is so where addition is exact; in single precision every sum is rounded.
-/

namespace GroundPlane

variable {α : Type}

/-! ## Stays -/

/-- Where an event takes the pointer: to a position, or out of the window. -/
def InputEvent.pointing? : InputEvent α → Option (Option (Vec2 α))
  | .pointerMove x y => some (some ⟨x, y⟩)
  | .pointerLeave => some none
  | _ => none

namespace Moment

/-- Where a moment takes the pointer. -/
def pointing? : Moment α → Option (Option (Vec2 α))
  | event e => e.pointing?
  | nextFrame => none

/-- How far the wheel turns at a moment. -/
def lines? : Moment α → Option α
  | event (.wheel lines) => some lines
  | _ => none

end Moment

/-- Where the pointer goes in a history: its positions, with `none` where it leaves the window. -/
def pointerTrail (history : List (Moment α)) : List (Option (Vec2 α)) :=
  history.filterMap Moment.pointing?

/-- The stays of the pointer in the window, each with the positions that it takes. A stay begins
with the first position, or with the first one after the pointer has left. -/
def staysOf (trail : List (Option (Vec2 α))) : List (List (Vec2 α)) :=
  ((trail.splitOnP Option.isNone).map List.reduceOption).filter (!·.isEmpty)

/-- The trail is that of the moments at which the pointer goes somewhere. -/
theorem pointerTrail_filter (history : List (Moment α)) :
    pointerTrail (history.filter (·.pointing?.isSome)) = pointerTrail history := by
  unfold pointerTrail
  rw [List.filterMap_filter]
  congr 1
  funext m
  cases m.pointing? <;> rfl

variable [AddCommGroup α]

/-- The way from the first position of a stay to the last. -/
def displacement : List (Vec2 α) → Vec2 α
  | [] => 0
  | first :: later => later.getLastD first - first

theorem displacement_singleton (p : Vec2 α) : displacement [p] = 0 :=
  p.sub_self

theorem displacement_cons_cons (p q : Vec2 α) (later : List (Vec2 α)) :
    displacement (p :: q :: later) = q - p + displacement (q :: later) := by
  simp only [displacement, List.getLastD_cons]
  exact (Vec2.sub_add_sub_cancel p q _).symm

/-- The ways of all stays, summed up. -/
def travel (trail : List (Option (Vec2 α))) : Vec2 α :=
  ((staysOf trail).map displacement).sum

theorem travel_leave (trail : List (Option (Vec2 α))) : travel (none :: trail) = travel trail := by
  simp [travel, staysOf, List.splitOnP_cons_eq_if_modifyHead]

theorem travel_enter (p : Vec2 α) : travel [some p] = 0 := by
  simp [travel, staysOf, List.splitOnP_cons_eq_if_modifyHead, displacement_singleton, Vec2.zero_add]

/-- A stay of one position goes nowhere. -/
theorem travel_enter_leave (p : Vec2 α) (trail : List (Option (Vec2 α))) :
    travel (some p :: none :: trail) = travel trail := by
  simp [travel, staysOf, List.splitOnP_cons_eq_if_modifyHead, displacement_singleton, Vec2.zero_add]

theorem travel_move (p q : Vec2 α) (trail : List (Option (Vec2 α))) :
    travel (some p :: some q :: trail) = q - p + travel (some q :: trail) := by
  obtain ⟨stay, rest, split⟩ :=
    List.exists_cons_of_ne_nil (List.splitOnP_ne_nil Option.isNone trail)
  simp [travel, staysOf, List.splitOnP_cons_eq_if_modifyHead, split, displacement_cons_cons,
    Vec2.add_assoc]

/-- What an event adds to the motion, it takes from the travel that is still to come. -/
theorem travel_event (pointer : Option (Vec2 α)) (e : InputEvent α)
    (trail : List (Option (Vec2 α))) :
    travel (pointer.toList.map some ++ (e.pointing?.toList ++ trail)) =
      (e.displacement? pointer).getD 0 +
        travel ((e.pointerAfter pointer).toList.map some ++ trail) := by
  cases pointer with
  | none =>
    cases e with
    | pointerLeave => exact (travel_leave trail).trans (Vec2.zero_add _).symm
    | _ => exact (Vec2.zero_add _).symm
  | some p =>
    cases e with
    | pointerMove x y => exact travel_move p ⟨x, y⟩ trail
    | pointerLeave => exact (travel_enter_leave p trail).trans (Vec2.zero_add _).symm
    | _ => exact (Vec2.zero_add _).symm

/-! ## Frames -/

namespace Input

/-- What the frames of a history tell: each frame at its end, and the last one as it is now. -/
def frames (i : Input α) : List (Moment α) → List (InputDelta α)
  | [] => [i.delta]
  | .event e :: history => (i.apply e).frames history
  | .nextFrame :: history => i.delta :: i.nextFrame.frames history

theorem sum_motion_frames (i : Input α) (history : List (Moment α)) :
    ((i.frames history).map (·.motion)).sum =
      i.delta.motion + travel (i.state.pointer.toList.map some ++ pointerTrail history) := by
  induction history generalizing i with
  | nil =>
    have still : travel (i.state.pointer.toList.map some ++ []) = 0 := by
      cases i.state.pointer with
      | none => rfl
      | some p => simp [travel_enter]
    exact congrArg (i.delta.motion + ·) still.symm
  | cons m history ih =>
    cases m with
    | event e =>
      obtain ⟨pointer, motion, -⟩ := i.pointing_apply e
      have motion' :
          (i.apply e).delta.motion = i.delta.motion + (e.displacement? i.state.pointer).getD 0 := by
        rw [motion]
        cases e.displacement? i.state.pointer with
        | none => exact i.delta.motion.add_zero.symm
        | some d => rfl
      have trail :
          pointerTrail (.event e :: history) = e.pointing?.toList ++ pointerTrail history := by
        simp only [pointerTrail, List.filterMap_cons, Moment.pointing?]
        cases e.pointing? <;> rfl
      calc (((i.apply e).frames history).map (·.motion)).sum
        _ = i.delta.motion + (e.displacement? i.state.pointer).getD 0 +
            travel ((e.pointerAfter i.state.pointer).toList.map some ++ pointerTrail history) := by
          rw [ih, motion', pointer]
        _ = i.delta.motion +
            travel (i.state.pointer.toList.map some ++ pointerTrail (.event e :: history)) := by
          rw [Vec2.add_assoc, trail, travel_event]
    | nextFrame =>
      calc i.delta.motion + ((i.nextFrame.frames history).map (·.motion)).sum
        _ = i.delta.motion +
            (0 + travel (i.state.pointer.toList.map some ++ pointerTrail history)) := by
          rw [ih]
          rfl
        _ = i.delta.motion +
            travel (i.state.pointer.toList.map some ++ pointerTrail (.nextFrame :: history)) := by
          rw [Vec2.zero_add]
          rfl

theorem sum_wheel_frames (i : Input α) (history : List (Moment α)) :
    ((i.frames history).map (·.wheel)).sum =
      i.delta.wheel + (history.filterMap Moment.lines?).sum := by
  induction history generalizing i with
  | nil => simp [frames]
  | cons m history ih =>
    cases m with
    | event e =>
      refine (ih (i.apply e)).trans ?_
      rw [(i.pointing_apply e).2.2]
      cases e with
      | wheel lines =>
        exact (add_assoc _ _ _).trans (congrArg (i.delta.wheel + ·) List.sum_cons.symm)
      | _ => rfl
    | nextFrame => exact congrArg (i.delta.wheel + ·) ((ih i.nextFrame).trans (zero_add _))

end Input

/-- The motions of all frames add up to the ways from the first to the last position of every stay
in the window, wherever frames begin and whatever else happens: only the moments at which the
pointer goes somewhere count. The turns of the wheel add up as well. -/
theorem motion_telescopes (history : List (Moment α)) :
    let frames := (Input.initial : Input α).frames history
    let pointing := history.filter (·.pointing?.isSome)
    (frames.map (·.motion)).sum = ((staysOf (pointerTrail history)).map displacement).sum ∧
    (frames.map (·.motion)).sum = ((Input.initial.frames pointing).map (·.motion)).sum ∧
    (frames.map (·.wheel)).sum = (history.filterMap Moment.lines?).sum := by
  have total (history : List (Moment α)) :
      (((Input.initial : Input α).frames history).map (·.motion)).sum =
        travel (pointerTrail history) :=
    (Input.initial.sum_motion_frames history).trans (Vec2.zero_add _)
  intro frames pointing
  refine ⟨total history, ?_, ?_⟩
  · rw [total, total, pointerTrail_filter]
  · exact (Input.initial.sum_wheel_frames history).trans (zero_add _)

-- The first stay spans two frames, and the jump to the second one is no motion.
example :
    let history : List (Moment Int) :=
      [.event (.pointerMove 1 1), .event (.pointerMove 4 1), .nextFrame, .event (.pointerMove 4 7),
        .event .pointerLeave, .event (.pointerMove 90 0), .nextFrame, .event (.pointerMove 90 5)]
    staysOf (pointerTrail history) = [[⟨1, 1⟩, ⟨4, 1⟩, ⟨4, 7⟩], [⟨90, 0⟩, ⟨90, 5⟩]] ∧
      (Input.initial.frames history).map (·.motion) = [⟨3, 0⟩, ⟨0, 6⟩, ⟨0, 5⟩] := by
  decide

end GroundPlane
