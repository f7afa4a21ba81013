import Mathlib.Data.List.Basic
import Thaw.Attempt

namespace Thaw.Attempt

set_option autoImplicit true

/-- Behind the phases `path` and the events `done`, all else being left as it was. -/
def State.after (s : State) (path : List Phase) (done : List Event) : State :=
  { s with
    progress := ⟨path.getLastD s.progress.current, s.progress.history ++ path⟩
    events := s.events ++ done }

namespace State

variable {s : State} {path path' : List Phase} {done done' : List Event}

@[simp] theorem after_nil : s.after [] [] = s := by simp [after]

theorem after_after :
    (s.after path done).after path' done' = s.after (path ++ path') (done ++ done') := by
  simp [after, List.getLastD_eq_getLast?, List.getLast?_append]

@[simp] theorem current_after :
    (s.after path done).progress.current = path.getLastD s.progress.current := rfl

@[simp] theorem events_after : (s.after path done).events = s.events ++ done := rfl

end State

namespace Step

def exec (x : Step α) (s : State) : Except CheckpointError α × State := x.run.run s

/-- From the phase `p` the step `x` comes to `y`, behind the phases `path` and the events `done`. -/
def Reaches (x : Step α) (p : Phase) (path : List Phase) (done : List Event) (y : Step α) : Prop :=
  ∀ s : State, s.progress.current = p → x.exec s = y.exec (s.after path done)

variable {x y z : Step α} {f : α → Step β} {k : Unit → Step α} {handler : CheckpointError → Step α}
  {p : Phase}

theorem exec_bind (x : Step α) (f : α → Step β) (s : State) :
    (x >>= f).exec s = match x.exec s with
      | (.ok a, s') => (f a).exec s'
      | (.error e, s') => (.error e, s') := by
  obtain ⟨r, s', h⟩ : ∃ r s', x.exec s = (r, s') := ⟨_, _, rfl⟩
  rw [h]
  unfold exec at h ⊢
  rw [ExceptT.run_bind, StateT.run_bind, h]
  cases r with
  | ok a => rfl
  | error e => rfl

theorem exec_tryCatch (x : Step α) (handler : CheckpointError → Step α) (s : State) :
    (tryCatch x handler).exec s = match x.exec s with
      | (.ok a, s') => (.ok a, s')
      | (.error e, s') => (handler e).exec s' := by
  obtain ⟨r, s', h⟩ : ∃ r s', x.exec s = (r, s') := ⟨_, _, rfl⟩
  rw [h]
  unfold exec at h ⊢
  rw [ExceptT.run_tryCatch, StateT.run_bind, h]
  cases r with
  | ok a => rfl
  | error e => rfl

theorem exec_get_bind (f : State → Step α) (s : State) : (get >>= f).exec s = (f s).exec s := rfl

theorem exec_modify_bind (g : State → State) (k : Unit → Step α) (s : State) :
    ((modify g : Step Unit) >>= k).exec s = (k ()).exec (g s) := rfl

theorem exec_advance (target : Phase) (s : State) :
    (advance target).exec s = match s.progress.advance target with
      | .ok progress => (.ok (), { s with progress := progress })
      | .error e => (.error (.forbiddenStep e), s) := by
  change Step.exec (match s.progress.advance target with | .ok _ => _ | .error _ => _) s = _
  cases s.progress.advance target with
  | ok progress => rfl
  | error e => rfl

namespace Reaches

theorem refl : Reaches x p [] [] x := fun s _ => by rw [State.after_nil]

theorem trans (hx : Reaches x p path done y) (hy : Reaches y (path.getLastD p) path' done' z) :
    Reaches x p (path ++ path') (done ++ done') z := by
  rintro s rfl
  rw [hx s rfl, hy _ State.current_after, State.after_after]

theorem bind (hx : Reaches x p path done y) : Reaches (x >>= f) p path done (y >>= f) := by
  intro s hs
  rw [exec_bind, exec_bind, hx s hs]

theorem advance (h : p.mayStep target = true) (hk : Reaches (k ()) target path done y) :
    Reaches (Attempt.advance target >>= k) p (target :: path) done y := by
  have hstep : Reaches (Attempt.advance target >>= k) p [target] [] (k ()) := by
    rintro s rfl
    rw [exec_bind, exec_advance, Progress.advance, if_pos h]
    simp [State.after]
  exact trans hstep hk

theorem note (hk : Reaches (k ()) p path done y) :
    Reaches (Attempt.note event >>= k) p path (event :: done) y := by
  have hstep : Reaches (Attempt.note event >>= k) p [] [event] (k ()) := by
    intro s _
    simp only [State.after, List.append_nil]
    rfl
  exact trans hstep hk

theorem note_if (c : Bool) (hk : Reaches y p path done z) :
    Reaches (if c = true then Attempt.note event >>= fun _ => y else y) p path
      (if c then event :: done else done) z := by
  cases c with
  | false => exact hk
  | true => exact note hk

theorem catch_pure (hx : Reaches x p path done (pure a)) :
    Reaches (tryCatch x handler) p path done (pure a) := by
  intro s hs
  rw [exec_tryCatch, hx s hs]
  rfl

theorem catch_throw (hx : Reaches x p path done (throw e))
    (hhandler : Reaches (handler e) (path.getLastD p) path' done' y) :
    Reaches (tryCatch x handler) p (path ++ path') (done ++ done') y := by
  rintro s rfl
  rw [exec_tryCatch, hx s rfl, ← State.after_after, ← hhandler _ State.current_after]
  rfl

end Reaches

end Step

end Thaw.Attempt
