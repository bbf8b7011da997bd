import Dmerge.Foundation.Run

/-!
# Observed runs

A specification is a system given by a relation: a step may be observed, and
what is observed is the list of its events.  A system is simulated by a
specification when an abstraction function turns each of its steps into a run of
the specification that is observed alike; then this holds of whole runs.
-/

namespace Dmerge
namespace Foundation

variable {sigma tau act event event' : Type}

/-- A run of a specification, and what is observed of it. -/
inductive Observed (step : sigma -> List event -> sigma -> Prop) :
    sigma -> List event -> sigma -> Prop where
  | refl (s : sigma) : Observed step s [] s
  | next {s s' t : sigma} {now later : List event} (hstep : step s now s')
      (hrest : Observed step s' later t) : Observed step s (now ++ later) t

section Observed

variable {step : sigma -> List event -> sigma -> Prop}

theorem Observed.single {s s' : sigma} {now : List event} (hstep : step s now s') :
    Observed step s now s' := by
  have hrun : Observed step s (now ++ []) s' := Observed.next hstep (Observed.refl s')
  rwa [List.append_nil] at hrun

theorem Observed.trans {s s' t : sigma} {now later : List event}
    (h : Observed step s now s') (h' : Observed step s' later t) :
    Observed step s (now ++ later) t := by
  induction h with
  | refl _ => exact h'
  | next hstep _ ih =>
      rw [List.append_assoc]
      exact Observed.next hstep (ih h')

theorem Observed.preserves {inv : sigma -> Prop}
    (hstep : forall s now s', inv s -> step s now s' -> inv s') {s t : sigma}
    {trace : List event} (hrun : Observed step s trace t) (hinv : inv s) : inv t := by
  induction hrun with
  | refl _ => exact hinv
  | next hs _ ih => exact ih (hstep _ _ _ hinv hs)

theorem Observed.simulated {step' : tau -> List event' -> tau -> Prop} {inv : sigma -> Prop}
    {abs : sigma -> tau} {see : event -> event'}
    (hstep : forall s now s', inv s -> step s now s' ->
      inv s' ∧ Observed step' (abs s) (now.map see) (abs s'))
    {s t : sigma} {trace : List event} (hrun : Observed step s trace t) (hinv : inv s) :
    Observed step' (abs s) (trace.map see) (abs t) := by
  induction hrun with
  | refl s => exact Observed.refl (abs s)
  | next hs _ ih =>
      rcases hstep _ _ _ hinv hs with ⟨hinv', hnow⟩
      rw [List.map_append]
      exact hnow.trans (ih hinv')

theorem runFrom_observed {concrete : tau -> act -> Option (tau × List event)}
    {cond : tau -> act -> Prop} {inv : tau -> Prop} {abs : tau -> sigma}
    (hstep : forall s a s' now, inv s -> cond s a -> concrete s a = some (s', now) ->
      inv s' ∧ Observed step (abs s) now (abs s'))
    {s t : tau} {trace : List event} {acts : List act} (hinv : inv s)
    (hmeets : RunMeets concrete cond s acts)
    (hrun : runFrom concrete s acts = some (t, trace)) :
    inv t ∧ Observed step (abs s) trace (abs t) := by
  induction acts generalizing s trace with
  | nil =>
      cases hrun
      exact ⟨hinv, Observed.refl _⟩
  | cons a rest ih =>
      rcases runFrom_cons_some hrun with ⟨s', now, later, hs, hrest, rfl⟩
      rcases hstep s a s' now hinv hmeets.1 hs with ⟨hinv', hnow⟩
      rcases ih hinv' (hmeets.2 s' now hs) hrest with ⟨hend, hlater⟩
      exact ⟨hend, hnow.trans hlater⟩

end Observed
end Foundation
end Dmerge
