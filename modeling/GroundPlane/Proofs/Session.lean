import Mathlib
import GroundPlane.Session.Host
import GroundPlane.Proofs.Recording

/-!
# How sessions run

A computation within a session that does not crash is taken apart at each of its steps
(`run_bind_eq_ok`), and put together from them with the calls that it makes (`Performs.bind`).
-/

namespace GroundPlane

open Gpu

/-- The host after a call. -/
def Host.after (h : Host) (c : Call) : Host :=
  { h with recorder := { h.recorder with calls := h.recorder.calls.push c } }

namespace Session

variable {β γ : Type} {h h' h₁ h₂ : Host}

theorem run_bind_of_ok {m : Session β} {f : β → Session γ} {b : β} (run : m.run h = .ok (b, h₁)) :
    (m >>= f).run h = (f b).run h₁ := by
  change (m.run h >>= fun p => (f p.1).run p.2) = _
  rw [run]
  rfl

theorem run_bind_of_error {m : Session β} {f : β → Session γ} {crash : Crash}
    (run : m.run h = .error crash) : (m >>= f).run h = .error crash := by
  change (m.run h >>= fun p => (f p.1).run p.2) = _
  rw [run]
  rfl

theorem run_bind_eq_ok {m : Session β} {f : β → Session γ} {c : γ} :
    (m >>= f).run h = .ok (c, h') ↔ ∃ b h₁, m.run h = .ok (b, h₁) ∧ (f b).run h₁ = .ok (c, h') := by
  have run : (m >>= f).run h = m.run h >>= fun p => (f p.1).run p.2 := rfl
  rw [run]
  cases m.run h with
  | error crash => exact ⟨nofun, nofun⟩
  | ok p =>
    constructor
    · intro next
      exact ⟨p.1, p.2, rfl, next⟩
    · rintro ⟨b, h₁, first, next⟩
      cases first
      exact next

/-- `m` does not crash: it gives `b`, makes the calls `cs` and leaves the outside as `h'`. -/
structure Performs (m : Session β) (h : Host) (b : β) (h' : Host) (cs : List Call) : Prop where
  run : m.run h = .ok (b, h')
  calls : h'.recorder.calls = h.recorder.calls ++ cs.toArray

theorem performs_pure (b : β) (h : Host) : Performs (pure b) h b h [] :=
  ⟨rfl, Array.append_empty.symm⟩

theorem performs_get (h : Host) : Performs get h h h [] :=
  ⟨rfl, Array.append_empty.symm⟩

theorem performs_fresh (h : Host) :
    ∃ n h', Performs (liftM Recording.fresh : Session Nat) h n h' [] :=
  ⟨_, _, rfl, Array.append_empty.symm⟩

theorem performs_record (c : Call) (h : Host) : Performs (record c) h () (h.after c) [c] :=
  ⟨rfl, Array.push_eq_append⟩

theorem Performs.bind {m : Session β} {f : β → Session γ} {b : β} {c : γ} {cs ds : List Call}
    (first : Performs m h b h₁ cs) (next : Performs (f b) h₁ c h₂ ds) :
    Performs (m >>= f) h c h₂ (cs ++ ds) where
  run := run_bind_eq_ok.2 ⟨b, h₁, first.run, next.run⟩
  calls := by rw [next.calls, first.calls, Array.append_assoc, List.append_toArray cs ds]

theorem Performs.bind_silent {m : Session β} {f : β → Session γ} {b : β} {c : γ} {cs : List Call}
    (first : Performs m h b h₁ cs) (next : Performs (f b) h₁ c h₂ []) :
    Performs (m >>= f) h c h₂ cs :=
  List.append_nil cs ▸ first.bind next

theorem performs_get_bind {f : Host → Session β} {b : β} {cs : List Call}
    (next : Performs (f h) h b h' cs) : Performs (get >>= f) h b h' cs :=
  ⟨next.run, next.calls⟩

/-- A computation makes the same calls whenever it is run. -/
theorem Performs.unique {m : Session β} {a b : β} {cs ds : List Call} (first : Performs m h a h₁ cs)
    (second : Performs m h b h₂ ds) : a = b ∧ h₁ = h₂ ∧ cs = ds := by
  cases first.run.symm.trans second.run
  have calls := first.calls.symm.trans second.calls
  rw [Array.append_right_inj] at calls
  exact ⟨rfl, rfl, List.toArray_inj calls⟩

theorem performs_lift {P : Call → Prop} {m : Recording β} (only : m.Only P) (h : Host) :
    ∃ b h' cs, Performs (liftM m : Session β) h b h' cs ∧ ∀ c ∈ cs, P c := by
  obtain ⟨cs, calls, holds⟩ := only h.recorder
  exact ⟨_, _, cs, ⟨rfl, calls⟩, holds⟩

theorem performs_of_makes {m : Recording β} {b : β} {k : Nat} {cs : List Call}
    (makes : m.Makes h.recorder.next b k cs) :
    Performs (liftM m : Session β) h b
      { h with recorder := ⟨k, h.recorder.calls ++ cs.toArray⟩ } cs where
  run := by
    change Except.ok ((m.run h.recorder).1, { h with recorder := (m.run h.recorder).2 }) = _
    rw [makes h.recorder.calls]
  calls := rfl

/-- The surface is asked once, whatever it answers. -/
theorem performs_acquire (h : Host) :
    ∃ answer h', Performs acquire h answer h' [.acquire answer] := by
  obtain ⟨platform, innerSize, acquires, measured, recorder⟩ := h
  rcases acquires with _ | ⟨_ | e, rest⟩
  · exact ⟨.ok recorder.next, _, rfl, Array.push_eq_append⟩
  · exact ⟨.ok recorder.next, _, rfl, Array.push_eq_append⟩
  · exact ⟨.error e, _, rfl, Array.push_eq_append⟩

end Session

end GroundPlane
