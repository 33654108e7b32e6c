import TypeCatalog.Fault

/-!
# Work that may fail

Changes to catalogs and work on hubs are sequences of steps over a state. `After` says what holds
when such work is over, whichever way it ends.
-/

namespace TypeCatalog

/-- `done` holds of the answer and the state if the work succeeds, and `failed` of the fault and the
state if it does not. -/
def After {σ α : Type} (work : EStateM Fault σ α) (s : σ) (done : α → σ → Prop)
    (failed : Fault → σ → Prop) : Prop :=
  match EStateM.run work s with
  | .ok a s' => done a s'
  | .error fault s' => failed fault s'

section After

variable {σ α β : Type} {work : EStateM Fault σ α} {s s' : σ} {done : α → σ → Prop}
  {failed : Fault → σ → Prop}

theorem After.at_ok {a : α} (h : After work s done failed) (hrun : EStateM.run work s = .ok a s') :
    done a s' := by
  rw [After, hrun] at h
  exact h

theorem After.at_error {fault : Fault} (h : After work s done failed)
    (hrun : EStateM.run work s = .error fault s') : failed fault s' := by
  rw [After, hrun] at h
  exact h

theorem After.mono {done' : α → σ → Prop} {failed' : Fault → σ → Prop}
    (h : After work s done failed) (hdone : ∀ a s', done a s' → done' a s')
    (hfailed : ∀ fault s', failed fault s' → failed' fault s') : After work s done' failed' := by
  unfold After at h ⊢
  split at h
  · exact hdone _ _ h
  · exact hfailed _ _ h

theorem After.and {done' : α → σ → Prop} {failed' : Fault → σ → Prop}
    (h : After work s done failed) (h' : After work s done' failed') :
    After work s (fun a s' => done a s' ∧ done' a s')
      (fun fault s' => failed fault s' ∧ failed' fault s') := by
  unfold After at h h' ⊢
  split at h
  · next hrun => rw [hrun] at h'; exact ⟨h, h'⟩
  · next hrun => rw [hrun] at h'; exact ⟨h, h'⟩

theorem After.and_run (h : After work s done failed) :
    After work s (fun a s' => EStateM.run work s = .ok a s' ∧ done a s') failed := by
  unfold After at h ⊢
  split at h
  · next hrun => exact ⟨hrun, h⟩
  · exact h

theorem After.total (h : After work s done failed) (hrun : ∃ a s', EStateM.run work s = .ok a s') :
    After work s done (fun _ _ => False) := by
  obtain ⟨a, s', hrun⟩ := hrun
  unfold After
  rw [hrun]
  exact h.at_ok hrun

theorem after_congr {work' : EStateM Fault σ α} (h : EStateM.run work s = EStateM.run work' s) :
    After work s done failed ↔ After work' s done failed := by
  rw [After, After, h]

theorem after_of_run {a : α} (hrun : EStateM.run work s = .ok a s') (h : done a s') :
    After work s done failed := by
  rw [After, hrun]
  exact h

theorem after_of_error {fault : Fault} (hrun : EStateM.run work s = .error fault s')
    (h : failed fault s') : After work s done failed := by
  rw [After, hrun]
  exact h

theorem after_pure (a : α) (h : done a s) : After (pure a) s done failed := h

theorem after_bind {f : α → EStateM Fault σ β} {done : β → σ → Prop}
    (h : After work s (fun a s' => After (f a) s' done failed) failed) :
    After (work >>= f) s done failed := by
  unfold After EStateM.run at h ⊢
  simp only [bind, EStateM.bind]
  cases hw : work s with
  | ok a s' => rw [hw] at h; exact h
  | error fault s' => rw [hw] at h; exact h

theorem run_bind {f : α → EStateM Fault σ β} {a : α} (hrun : EStateM.run work s = .ok a s') :
    EStateM.run (work >>= f) s = EStateM.run (f a) s' := by
  simp only [EStateM.run, bind, EStateM.bind] at hrun ⊢
  rw [hrun]

theorem run_bind_error {f : α → EStateM Fault σ β} {fault : Fault}
    (hrun : EStateM.run work s = .error fault s') :
    EStateM.run (work >>= f) s = .error fault s' := by
  simp only [EStateM.run, bind, EStateM.bind] at hrun ⊢
  rw [hrun]

theorem run_discard {a : α} (hrun : EStateM.run work s = .ok a s') :
    EStateM.run (discard work) s = .ok () s' := by
  simp only [EStateM.run, discard, Functor.discard, Functor.mapConst, Function.comp,
    EStateM.map] at hrun ⊢
  rw [hrun]

theorem after_discard {done : PUnit → σ → Prop}
    (h : After work s (fun _ s' => done ⟨⟩ s') failed) : After (discard work) s done failed := by
  unfold After EStateM.run at h ⊢
  simp only [discard, Functor.discard, Functor.mapConst, Function.comp, EStateM.map]
  cases hw : work s with
  | ok a s' => rw [hw] at h; exact h
  | error fault s' => rw [hw] at h; exact h

end After

end TypeCatalog
