import Mathlib.Data.List.Basic

/-!
# Runs of a labelled system

A system takes a step under a label or refuses it, and emits events.  A run is
a list of labels that are all accepted.  The invariant rule packages the
induction over runs once: it is stated for runs whose steps meet a condition,
and the unconditional rule is the case of the trivial condition.
-/

namespace Dmerge
namespace Foundation

variable {sigma act event : Type}

/-- The state and the events after a run, if every step is accepted. -/
def runFrom (step : sigma -> act -> Option (sigma × List event)) :
    sigma -> List act -> Option (sigma × List event)
  | s, [] => some (s, [])
  | s, a :: rest =>
      match step s a with
      | none => none
      | some (s', now) =>
          match runFrom step s' rest with
          | none => none
          | some (t, later) => some (t, now ++ later)

/-- Every accepted step of the run meets the condition in the state before it. -/
def RunMeets (step : sigma -> act -> Option (sigma × List event))
    (cond : sigma -> act -> Prop) : sigma -> List act -> Prop
  | _, [] => True
  | s, a :: rest =>
      cond s a ∧ forall s' now, step s a = some (s', now) -> RunMeets step cond s' rest

section Runs

variable {step : sigma -> act -> Option (sigma × List event)}

@[simp] theorem runFrom_nil (s : sigma) : runFrom step s [] = some (s, []) := rfl

theorem runFrom_cons_some {s t : sigma} {a : act} {rest : List act}
    {trace : List event} (h : runFrom step s (a :: rest) = some (t, trace)) :
    exists s' now later,
      step s a = some (s', now) ∧
        runFrom step s' rest = some (t, later) ∧ trace = now ++ later := by
  simp only [runFrom] at h
  cases hstep : step s a with
  | none =>
      rw [hstep] at h
      cases h
  | some next =>
      rcases next with ⟨s', now⟩
      rw [hstep] at h
      cases hrest : runFrom step s' rest with
      | none =>
          simp only [hrest] at h
          cases h
      | some last =>
          rcases last with ⟨t', later⟩
          simp only [hrest] at h
          cases h
          exact ⟨s', now, later, rfl, hrest, rfl⟩

theorem runFrom_snoc {s t t' : sigma} {acts : List act} {trace now : List event} {a : act}
    (hrun : runFrom step s acts = some (t, trace)) (hstep : step t a = some (t', now)) :
    runFrom step s (acts ++ [a]) = some (t', trace ++ now) := by
  induction acts generalizing s trace with
  | nil =>
      cases hrun
      simp only [List.nil_append, runFrom, hstep, List.append_nil]
  | cons b rest ih =>
      rcases runFrom_cons_some hrun with ⟨s', first, later, hs, hrest, rfl⟩
      simp only [List.cons_append, runFrom, hs, ih hrest, List.append_assoc]

instance RunMeets.decidable {cond : sigma -> act -> Prop} [forall s a, Decidable (cond s a)] :
    forall s acts, Decidable (RunMeets step cond s acts)
  | _, [] => isTrue True.intro
  | s, a :: rest =>
      match hstep : step s a with
      | none =>
          decidable_of_iff (cond s a)
            ⟨fun h => ⟨h, fun _ _ hs => by rw [hstep] at hs; cases hs⟩, fun h => h.1⟩
      | some (s', now) =>
          have : Decidable (RunMeets step cond s' rest) := RunMeets.decidable s' rest
          decidable_of_iff (cond s a ∧ RunMeets step cond s' rest)
            ⟨fun h => ⟨h.1, fun _ _ hs => by rw [hstep] at hs; cases hs; exact h.2⟩,
              fun h => ⟨h.1, h.2 s' now hstep⟩⟩

theorem RunMeets.weaken {cond weaker : sigma -> act -> Prop} {s : sigma} {acts : List act}
    (h : RunMeets step cond s acts) (himp : forall s a, cond s a -> weaker s a) :
    RunMeets step weaker s acts := by
  induction acts generalizing s with
  | nil => exact True.intro
  | cons a rest ih =>
      exact ⟨himp s a h.1, fun s' now hstep => ih (h.2 s' now hstep)⟩

theorem runMeets_of_forall {cond : sigma -> act -> Prop} {acts : List act}
    (h : forall a, a ∈ acts -> forall s, cond s a) (s : sigma) :
    RunMeets step cond s acts := by
  induction acts generalizing s with
  | nil => exact True.intro
  | cons a rest ih =>
      refine ⟨h a List.mem_cons_self s, fun s' _ _ => ?_⟩
      exact ih (fun b hb => h b (List.mem_cons_of_mem a hb)) s'

theorem runFrom_total {cond : sigma -> act -> Prop}
    (hstep : forall s a, cond s a -> exists s' now, step s a = some (s', now))
    {s : sigma} {acts : List act} (hmeets : RunMeets step cond s acts) :
    exists t trace, runFrom step s acts = some (t, trace) := by
  induction acts generalizing s with
  | nil => exact ⟨s, [], rfl⟩
  | cons a rest ih =>
      rcases hstep s a hmeets.1 with ⟨s', now, hs⟩
      rcases ih (hmeets.2 s' now hs) with ⟨t, later, hrest⟩
      refine ⟨t, now ++ later, ?_⟩
      simp only [runFrom, hs, hrest]

theorem forall_events_iff_runMeets {cond : sigma -> act -> Prop} {good : event -> Prop}
    (hstep : forall s a s' now, step s a = some (s', now) ->
      ((forall e, e ∈ now -> good e) <-> cond s a))
    {s t : sigma} {acts : List act} {trace : List event}
    (hrun : runFrom step s acts = some (t, trace)) :
    (forall e, e ∈ trace -> good e) <-> RunMeets step cond s acts := by
  induction acts generalizing s trace with
  | nil =>
      cases hrun
      exact ⟨fun _ => True.intro, fun _ e he => by cases he⟩
  | cons a rest ih =>
      rcases runFrom_cons_some hrun with ⟨s', now, later, hs, hrest, rfl⟩
      constructor
      · intro hgood
        refine ⟨(hstep s a s' now hs).mp fun e he => hgood e (List.mem_append_left _ he), ?_⟩
        intro s'' now' hs'
        rw [hs] at hs'
        cases hs'
        exact (ih hrest).mp fun e he => hgood e (List.mem_append_right _ he)
      · rintro ⟨hcond, hmeets⟩ e he
        rcases List.mem_append.mp he with hnow | hlater
        · exact (hstep s a s' now hs).mpr hcond e hnow
        · exact (ih hrest).mpr (hmeets s' now hs) e hlater

theorem runFrom_invariant {cond : sigma -> act -> Prop}
    {inv : sigma -> List event -> Prop}
    (hstep : forall s past a s' now, inv s past -> cond s a ->
      step s a = some (s', now) -> inv s' (past ++ now))
    {s t : sigma} {past trace : List event} {acts : List act}
    (hinv : inv s past) (hmeets : RunMeets step cond s acts)
    (hrun : runFrom step s acts = some (t, trace)) : inv t (past ++ trace) := by
  induction acts generalizing s past trace with
  | nil =>
      simp only [runFrom_nil] at hrun
      cases hrun
      simpa using hinv
  | cons a rest ih =>
      rcases runFrom_cons_some hrun with ⟨s', now, later, hs, hrest, rfl⟩
      have hnext : inv s' (past ++ now) := hstep s past a s' now hinv hmeets.1 hs
      simpa [List.append_assoc] using ih hnext (hmeets.2 s' now hs) hrest

theorem runFrom_invariant_free {inv : sigma -> List event -> Prop}
    (hstep : forall s past a s' now, inv s past -> step s a = some (s', now) ->
      inv s' (past ++ now))
    {s t : sigma} {past trace : List event} {acts : List act}
    (hinv : inv s past) (hrun : runFrom step s acts = some (t, trace)) :
    inv t (past ++ trace) := by
  have hmeets : RunMeets step (fun _ _ => True) s acts :=
    runMeets_of_forall (fun _ _ _ => True.intro) s
  exact runFrom_invariant (fun s past a s' now h _ hs => hstep s past a s' now h hs)
    hinv hmeets hrun

theorem runFrom_preserves {inv : sigma -> Prop}
    (hstep : forall s a s' now, inv s -> step s a = some (s', now) -> inv s')
    {s t : sigma} {trace : List event} {acts : List act} (hinv : inv s)
    (hrun : runFrom step s acts = some (t, trace)) : inv t := by
  have hstep' : forall s (past : List event) a s' now, inv s ->
      step s a = some (s', now) -> inv s' :=
    fun s _ a s' now h hs => hstep s a s' now h hs
  exact @runFrom_invariant_free _ _ _ step (fun s _ => inv s) hstep' s t [] trace acts hinv hrun

theorem runFrom_preserves_of_meets {cond : sigma -> act -> Prop} {inv : sigma -> Prop}
    (hstep : forall s a s' now, inv s -> cond s a -> step s a = some (s', now) -> inv s')
    {s t : sigma} {trace : List event} {acts : List act} (hinv : inv s)
    (hmeets : RunMeets step cond s acts) (hrun : runFrom step s acts = some (t, trace)) :
    inv t := by
  have hstep' : forall s (past : List event) a s' now, inv s -> cond s a ->
      step s a = some (s', now) -> inv s' :=
    fun s _ a s' now h hc hs => hstep s a s' now h hc hs
  exact @runFrom_invariant _ _ _ step cond (fun s _ => inv s) hstep' s t [] trace acts hinv
    hmeets hrun

end Runs
end Foundation
end Dmerge
