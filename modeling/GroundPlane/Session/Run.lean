import GroundPlane.Session.Loop

/-!
# Runs

A whole run of an application: the platform delivers callbacks to the loop until there are no more,
and an open window is closed at the end.
-/

namespace GroundPlane

open Gpu Session

/-- Why a run fails. -/
inductive RunError
  | eventLoop (cause : String)
  | interrupted (cause : String)
  | setup (error : SetupError)
deriving DecidableEq

/-- The text of a failure. -/
def RunError.message : RunError → String
  | eventLoop cause => "failed to create winit EventLoop: " ++ cause
  | interrupted cause => "winit event loop terminated with error: " ++ cause
  | setup e => e.message

/-- What a run leaves behind: its result, the calls made during each callback, and those made after
the last. -/
structure Report where
  result : Except RunError Unit
  steps : List (List Call)
  closing : List Call

namespace Session

/-- The calls that a computation makes. -/
def listen {β : Type} (m : Session β) : Session (β × List Call) := do
  modify fun host => { host with recorder := { host.recorder with calls := #[] } }
  let b ← m
  return (b, (← get).recorder.calls.toList)

end Session

namespace Loop

variable {σ : Type}

/-- Handles callbacks in order, and gives the calls made during each. -/
def steps (window : WindowOptions) (options : Options) (app : App σ) (l : Loop σ) :
    List Callback → Session (Loop σ × List (List Call))
  | [] => return (l, [])
  | c :: rest => do
      let (l, calls) ← listen (l.step window options app c)
      let (l, later) ← l.steps window options app rest
      return (l, calls :: later)

/-- Closes a window that is still open. -/
def finish (l : Loop σ) : Session Unit := do
  if l.entry.isSome then
    Entry.close

/-- The result of a run, once all callbacks are handled. -/
def result (l : Loop σ) (faults : Faults) : Except RunError Unit :=
  match faults.runLoop, l.failure with
  | some cause, _ => .error (.interrupted cause)
  | none, some e => .error (.setup e)
  | none, none => .ok ()

end Loop

/-- Runs an application. -/
def App.run {σ : Type} (app : App σ) (start : σ) (window : WindowOptions) (options : Options)
    (callbacks : List Callback) : Session Report := do
  let faults := (← get).platform.faults
  match faults.eventLoop with
  | some cause => return { result := .error (.eventLoop cause), steps := [], closing := [] }
  | none =>
      let (l, steps) ← (Loop.initial start).steps window options app callbacks
      let (_, closing) ← listen l.finish
      return { result := l.result faults, steps, closing }

end GroundPlane
