import Dmerge.Allocator.BumpSafety

/-!
# Growing an extent

An allocator grows an extent by asking for another one at the end of it and merging the
two.  It trusts the address that it gets and the answer of the merge.  The alloc hook
does not look at the address that is asked for, and the merge hook answers that it has
merged whatever it is given, so the contract is kept only where the heap top happens to
be at the address.
-/

namespace Dmerge
namespace Allocator

open Foundation

def HookEvent.HonoursAddress : HookEvent -> Prop
  | { call := .alloc newAddr _ _ _, result := .extent addr } =>
      newAddr ≠ 0 -> addr = newAddr ∨ addr = 0
  | _ => True

def HookEvent.AsksAt : HookEvent -> Nat -> Prop
  | { call := .alloc newAddr _ _ _, result := _ }, at_ => newAddr.toNat = at_
  | _, _ => False

def HookEvent.Merges : HookEvent -> Extent -> Extent -> Prop
  | { call := .merge addrA sizeA addrB sizeB, result := .code c }, first, second =>
      addrA.toNat = first.addr ∧ sizeA.toNat = first.size ∧ addrB.toNat = second.addr ∧
        sizeB.toNat = second.size ∧ c = 0
  | _, _, _ => False

/-- An extent that was asked for at the end of another is merged with it only if it is
there, so the merged range is what was handed out for it. -/
def MergesAdjacent (events : List HookEvent) : Prop :=
  forall before grow between merge after first second,
    events = before ++ grow :: (between ++ merge :: after) ->
    first ∈ grantedIn before -> grow.AsksAt first.stop -> grow.granted = some second ->
    merge.Merges first second ->
      first.stop = second.addr ∧
        forall a, first.addr ≤ a -> a < first.addr + (first.size + second.size) ->
          first.Holds a ∨ second.Holds a

/-- What allocators of this kind are promised. -/
def KeepsContract (events : List HookEvent) : Prop :=
  (forall e, e ∈ events -> e.HonoursAddress) ∧ MergesAdjacent events

/-- A call that asks for an address finds the aligned heap top there, or nothing fits. -/
def MeetsTop (p : Process) : HookCall -> Prop
  | .alloc newAddr size alignment _ =>
      newAddr = 0 ∨ p.master.alignedTop alignment = newAddr ∨
        p.master.alignedTop alignment = 0 ∨
        p.master.endAddr ≤ p.master.alignedTop alignment + size
  | _ => True

instance (p : Process) : forall c, Decidable (MeetsTop p c)
  | .alloc _ _ _ _ => inferInstanceAs (Decidable (_ ∨ _ ∨ _ ∨ _))
  | .dalloc _ _ => isTrue True.intro
  | .destroy _ _ => isTrue True.intro
  | .commit _ _ _ _ => isTrue True.intro
  | .decommit _ _ _ _ => isTrue True.intro
  | .purgeLazy _ _ _ _ => isTrue True.intro
  | .purgeForced _ _ _ _ => isTrue True.intro
  | .split _ _ _ _ => isTrue True.intro
  | .merge _ _ _ _ => isTrue True.intro

/-!
## One call
-/

theorem honours_iff_meetsTop {p p' : Process} {c : HookCall} {r : HookResult}
    (h : serveHook p c = some (r, p')) :
    ({ call := c, result := r } : HookEvent).HonoursAddress <-> MeetsTop p c := by
  cases c with
  | alloc newAddr size alignment zero =>
      have hne : alignment ≠ 0 := by
        rintro rfl
        cases h
      rw [serveHook_alloc p hne] at h
      have hr : r = .extent (extentAllocHook p newAddr size alignment zero).1 :=
        (congrArg Prod.fst (Option.some.inj h)).symm
      subst hr
      unfold HookEvent.HonoursAddress MeetsTop
      simp only
      by_cases hfull : p.master.endAddr ≤ p.master.alignedTop alignment + size
      · rw [extentAllocHook_full newAddr zero hfull]
        constructor
        · intro _
          exact Or.inr (Or.inr (Or.inr hfull))
        · intro _ _
          exact Or.inr rfl
      · rw [extentAllocHook_fits newAddr zero hfull]
        constructor
        · intro hhonours
          by_cases hzero : newAddr = 0
          · exact Or.inl hzero
          · cases hhonours hzero with
            | inl hat => exact Or.inr (Or.inl hat)
            | inr hnull => exact Or.inr (Or.inr (Or.inl hnull))
        · rintro (hzero | hat | hnull | hfits) hne
          · exact absurd hzero hne
          · exact Or.inl hat
          · exact Or.inr hnull
          · exact absurd hfits hfull
  | destroy addr size =>
      cases h
      exact Iff.rfl
  | _ =>
      cases h
      exact Iff.rfl

theorem HookEvent.of_granted {e : HookEvent} {x : Extent} (h : e.granted = some x) :
    exists newAddr size alignment zero addr,
      e = { call := .alloc newAddr size alignment zero, result := .extent addr } ∧
        addr ≠ 0 ∧ x = { addr := addr.toNat, size := size.toNat } := by
  rcases e with ⟨call, result⟩
  cases call with
  | alloc newAddr size alignment zero =>
      cases result with
      | extent addr =>
          unfold HookEvent.granted at h
          simp only at h
          split at h
          · cases h
          · next hne =>
              cases h
              exact ⟨newAddr, size, alignment, zero, addr, rfl, hne, rfl⟩
      | code c => cases h
      | none => cases h
  | _ => cases h

theorem addr_pos_of_granted {events : List HookEvent} {x : Extent} (h : x ∈ grantedIn events) :
    0 < x.addr := by
  rcases List.mem_filterMap.mp h with ⟨e, _, hgranted⟩
  rcases HookEvent.of_granted hgranted with ⟨_, _, _, _, addr, _, hne, rfl⟩
  apply Nat.pos_of_ne_zero
  intro hzero
  exact hne (UInt64.toNat_inj.mp hzero)

theorem mergesAdjacent_of_honours {events : List HookEvent}
    (h : forall e, e ∈ events -> e.HonoursAddress) : MergesAdjacent events := by
  intro before grow between merge after first second hevents hfirst hasks hgranted _
  have hhonours : grow.HonoursAddress := by
    apply h
    rw [hevents]
    exact List.mem_append_right _ List.mem_cons_self
  have hadjacent : first.stop = second.addr := by
    rcases HookEvent.of_granted hgranted with ⟨newAddr, _, _, _, addr, rfl, hne, rfl⟩
    have hat : newAddr.toNat = first.stop := hasks
    have hnew : newAddr ≠ 0 := by
      rintro rfl
      have hpos := addr_pos_of_granted hfirst
      unfold Extent.stop at hat
      rw [UInt64.toNat_zero] at hat
      omega
    cases hhonours hnew with
    | inl hsame => rw [hsame, hat]
    | inr hnull => exact absurd hnull hne
  refine ⟨hadjacent, ?_⟩
  intro a hlow hhigh
  by_cases hfirst : a < first.stop
  · exact Or.inl ⟨hlow, hfirst⟩
  · apply Or.inr
    constructor
    · rw [← hadjacent]
      exact Nat.not_lt.mp hfirst
    · unfold Extent.stop at hadjacent ⊢
      omega

/-!
## Runs
-/

/-- A run keeps the contract exactly if every call that asks for an address finds the
heap top there, or gets nothing. -/
theorem keepsContract_iff (memAddr memSize : UInt64) (mem : Memory) (calls : List HookCall)
    (p : Process) (events : List HookEvent)
    (hrun : runFrom hookStep (Process.start memAddr memSize mem) calls = some (p, events)) :
    KeepsContract events <->
      RunMeets hookStep MeetsTop (Process.start memAddr memSize mem) calls := by
  have hevents : (forall e, e ∈ events -> e.HonoursAddress) <->
      RunMeets hookStep MeetsTop (Process.start memAddr memSize mem) calls := by
    apply forall_events_iff_runMeets _ hrun
    intro p c p' now hstep
    rcases hookStep_some hstep with ⟨r, hserve, rfl⟩
    exact (List.forall_mem_singleton).trans (honours_iff_meetsTop hserve)
  rw [← hevents]
  constructor
  · exact And.left
  · intro h
    exact ⟨h, mergesAdjacent_of_honours h⟩

def growAtOnce : List HookCall :=
  [.alloc 0 4096 4096 0, .alloc 8192 4096 4096 0, .merge 4096 4096 8192 4096]

theorem keepsContract_iff_at_once :
    exists p events, runFrom hookStep (Process.start 4096 65536 fun _ => 0) growAtOnce =
      some (p, events) ∧ KeepsContract events := by
  have hserved : (runFrom hookStep (Process.start 4096 65536 fun _ => 0) growAtOnce).isSome := by
    decide +kernel
  rcases Option.isSome_iff_exists.mp hserved with ⟨⟨p, events⟩, hrun⟩
  refine ⟨p, events, hrun, ?_⟩
  apply (keepsContract_iff 4096 65536 (fun _ => 0) growAtOnce p events hrun).mpr
  decide +kernel

def growLater : List HookCall :=
  [.alloc 0 4096 4096 0, .alloc 0 4096 4096 0, .alloc 8192 4096 4096 0,
    .merge 4096 4096 12288 4096]

theorem not_keepsContract_later :
    ¬ forall (memAddr memSize : UInt64) (mem : Memory) (calls : List HookCall) p events,
      runFrom hookStep (Process.start memAddr memSize mem) calls = some (p, events) ->
        KeepsContract events := by
  intro h
  have hserved : (runFrom hookStep (Process.start 4096 65536 fun _ => 0) growLater).map
      Prod.snd = some
        [⟨.alloc 0 4096 4096 0, .extent 4096⟩, ⟨.alloc 0 4096 4096 0, .extent 8192⟩,
          ⟨.alloc 8192 4096 4096 0, .extent 12288⟩,
          ⟨.merge 4096 4096 12288 4096, .code 0⟩] := by
    decide +kernel
  rcases Option.map_eq_some_iff.mp hserved with ⟨⟨p, events⟩, hrun, rfl⟩
  have hmerges := (h 4096 65536 _ growLater p _ hrun).2
  have hadjacent := hmerges
    [⟨.alloc 0 4096 4096 0, .extent 4096⟩, ⟨.alloc 0 4096 4096 0, .extent 8192⟩]
    ⟨.alloc 8192 4096 4096 0, .extent 12288⟩ [] ⟨.merge 4096 4096 12288 4096, .code 0⟩ []
    { addr := 4096, size := 4096 } { addr := 12288, size := 4096 } rfl (by decide) rfl rfl
    ⟨rfl, rfl, rfl, rfl, rfl⟩
  exact absurd hadjacent.1 (by decide)

end Allocator
end Dmerge
