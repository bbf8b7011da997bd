import Mathlib.Algebra.Order.Ring.Nat
import Dmerge.Foundation.Arena
import Dmerge.Allocator.Hooks

/-!
# Safety of the bump allocator

The heap of the hooks is an arena, as long as the words do not overflow: below 2 ^ 47 an
aligned address and a size still add up to a word.  An extent at address zero would be
taken for a failure, so the heap must not start there.
-/

namespace Dmerge
namespace Allocator

open Foundation

/-- The sizes and the alignments that may be asked for. -/
def HookCall.Admissible : HookCall -> Prop
  | .alloc _ size alignment _ => size.toNat < 2 ^ 63 ∧ exists k, alignment.toNat = 2 ^ k
  | _ => True

def HookEvent.granted : HookEvent -> Option Extent
  | { call := .alloc _ size _ _, result := .extent addr } =>
      if addr = 0 then none else some { addr := addr.toNat, size := size.toNat }
  | _ => none

def grantedIn (events : List HookEvent) : List Extent := events.filterMap HookEvent.granted

structure SafeCall (lo hi : Nat) (p : Process) (past : List HookEvent) (e : HookEvent)
    (p' : Process) : Prop where
  aligned : forall newAddr size alignment zero addr,
    e = { call := .alloc newAddr size alignment zero, result := .extent addr } ->
      alignment.toNat ∣ addr.toNat
  inside : forall x, e.granted = some x -> x.Inside lo hi
  apart : forall x, e.granted = some x -> forall y, y ∈ grantedIn past ->
    forall a, y.Holds a -> ¬ x.Holds a
  advances : p.master.heapTop ≤ p'.master.heapTop
  bounded : p'.master.heapTop.toNat ≤ hi
  fails : e.result = .extent 0 -> p'.master.heapTop = p.master.heapTop
  zeroes : forall a, p'.mem a ≠ p.mem a -> exists x, e.granted = some x ∧ x.Holds a.toNat

/-- Some calls after the start are all served, the heap top is in the heap after them, and
whatever is called next is served and safe. -/
def SafeAfter (memAddr memSize : UInt64) (mem : Memory) (calls : List HookCall) : Prop :=
  exists p past,
    runFrom hookStep (Process.start memAddr memSize mem) calls = some (p, past) ∧
      memAddr ≤ p.master.heapTop ∧
      p.master.heapTop.toNat ≤ memAddr.toNat + memSize.toNat ∧
      forall c : HookCall, c.Admissible -> exists r p', serveHook p c = some (r, p') ∧
        SafeCall memAddr.toNat (memAddr.toNat + memSize.toNat) p past
          { call := c, result := r } p'

structure Manages (A : Arena) (p : Process) (past : List HookEvent) : Prop where
  top : p.master.heapTop.toNat = A.top
  hi : p.master.endAddr.toNat = A.hi
  granted : grantedIn past = A.granted

/-!
## Words
-/

theorem exponent_le {alignment : UInt64} {k : Nat} (h : alignment.toNat = 2 ^ k) : k ≤ 63 := by
  have hlt := alignment.toNat_lt
  rw [h] at hlt
  have hk := (Nat.pow_lt_pow_iff_right (by decide)).mp hlt
  omega

theorem ne_zero_of_exponent {alignment : UInt64} {k : Nat} (h : alignment.toNat = 2 ^ k) :
    alignment ≠ 0 := by
  rintro rfl
  exact absurd h.symm (Nat.ne_of_gt (Nat.two_pow_pos k))

theorem roundUp_le_word {top k : Nat} (htop : top < 2 ^ 47) (hk : k ≤ 63) :
    roundUp top (2 ^ k) ≤ 2 ^ 63 := by
  apply roundUp_le_of_dvd (Nat.two_pow_pos k) (Nat.pow_dvd_pow 2 hk)
  exact Nat.le_of_lt (Nat.lt_of_lt_of_le htop (by decide))

theorem toNat_alignedTop_mod (m : AllocatorMaster) {alignment : UInt64} (hne : alignment ≠ 0) :
    (m.alignedTop alignment).toNat = roundUp m.heapTop.toNat alignment.toNat % 2 ^ 64 := by
  have hpos : 0 < alignment.toNat := by
    apply Nat.pos_of_ne_zero
    intro hzero
    exact hne (UInt64.toNat_inj.mp hzero)
  have hmod : (m.heapTop % alignment).toNat = m.heapTop.toNat % alignment.toNat :=
    UInt64.toNat_mod _ _
  have hzero : m.heapTop % alignment ≠ 0 <-> m.heapTop.toNat % alignment.toNat ≠ 0 := by
    rw [← hmod, ne_eq, ne_eq, UInt64.toNat_inj.symm]
    rfl
  unfold AllocatorMaster.alignedTop roundUp
  simp only [hzero]
  split
  · rw [UInt64.toNat_add, UInt64.toNat_sub_of_le, hmod]
    rw [UInt64.le_iff_toNat_le, hmod]
    exact Nat.le_of_lt (Nat.mod_lt _ hpos)
  · exact (Nat.mod_eq_of_lt m.heapTop.toNat_lt).symm

theorem toNat_alignedTop {m : AllocatorMaster} {alignment : UInt64} {k : Nat}
    (htop : m.heapTop.toNat < 2 ^ 47) (halign : alignment.toNat = 2 ^ k) :
    (m.alignedTop alignment).toNat = roundUp m.heapTop.toNat alignment.toNat := by
  have hbound := roundUp_le_word htop (exponent_le halign)
  rw [← halign] at hbound
  rw [toNat_alignedTop_mod m (ne_zero_of_exponent halign)]
  apply Nat.mod_eq_of_lt
  exact Nat.lt_of_le_of_lt hbound (by decide)

/-!
## One call
-/

section Calls

variable {A : Arena} {p : Process} {past : List HookEvent}

theorem granted_of_null {e : HookEvent} (hnull : forall addr, e.result = .extent addr -> addr = 0) :
    e.granted = none := by
  rcases e with ⟨call, result⟩
  cases result with
  | extent addr =>
      have haddr : addr = 0 := hnull addr rfl
      subst haddr
      cases call <;> rfl
  | code c => cases call <;> rfl
  | none => cases call <;> rfl

theorem grantedIn_concat (past : List HookEvent) (e : HookEvent) :
    grantedIn (past ++ [e]) = grantedIn past ++ e.granted.toList := by
  unfold grantedIn
  rw [List.filterMap_append]
  cases hgranted : e.granted with
  | none =>
      rw [List.filterMap_cons_none hgranted]
      rfl
  | some x =>
      rw [List.filterMap_cons_some hgranted]
      rfl

theorem Manages.bounds (h : Manages A p past) (hhi : A.hi < 2 ^ 47) :
    p.master.heapTop.toNat < 2 ^ 47 := by
  rw [h.top]
  exact Nat.lt_of_le_of_lt A.top_le_hi hhi

theorem Manages.idle (h : Manages A p past) {e : HookEvent}
    (hnull : forall addr, e.result = .extent addr -> addr = 0) :
    Manages A p (past ++ [e]) ∧ SafeCall A.lo A.hi p past e p := by
  have hnone := granted_of_null hnull
  constructor
  · refine ⟨h.top, h.hi, ?_⟩
    rw [grantedIn_concat, hnone, h.granted]
    exact List.append_nil _
  · exact
      { aligned := by
          intro newAddr size alignment zero addr he
          subst he
          have haddr : addr = 0 := hnull addr rfl
          subst haddr
          exact Nat.dvd_zero _
        inside := by
          intro x hx
          rw [hnone] at hx
          cases hx
        apart := by
          intro x hx
          rw [hnone] at hx
          cases hx
        advances := UInt64.le_refl _
        bounded := by
          rw [h.top]
          exact A.top_le_hi
        fails := fun _ => rfl
        zeroes := fun a ha => absurd rfl ha }

theorem memset_ne {mem : Memory} {dst n a : UInt64} {c : UInt8}
    (h : memset mem dst c n a ≠ mem a) : dst.toNat ≤ a.toNat ∧ a.toNat < dst.toNat + n.toNat := by
  unfold memset at h
  by_contra hout
  rw [if_neg hout] at h
  exact h rfl

theorem Manages.room (h : Manages A p past) (hpos : 0 < A.lo) (hhi : A.hi < 2 ^ 47)
    {size alignment : UInt64} {k : Nat} (hsize : size.toNat < 2 ^ 63)
    (halign : alignment.toNat = 2 ^ k)
    (hfits : ¬ p.master.endAddr ≤ p.master.alignedTop alignment + size) :
    A.top ≤ (p.master.alignedTop alignment).toNat ∧
      (p.master.alignedTop alignment + size).toNat =
        (p.master.alignedTop alignment).toNat + size.toNat ∧
      (p.master.alignedTop alignment).toNat + size.toNat ≤ A.hi ∧
      p.master.alignedTop alignment ≠ 0 := by
  have hret := toNat_alignedTop (h.bounds hhi) halign
  have hbound := roundUp_le_word (h.bounds hhi) (exponent_le halign)
  rw [← halign, ← hret] at hbound
  have hlow : A.top ≤ (p.master.alignedTop alignment).toNat := by
    rw [hret, h.top]
    exact le_roundUp _ _
  have hstop : (p.master.alignedTop alignment + size).toNat =
      (p.master.alignedTop alignment).toNat + size.toNat := by
    rw [UInt64.toNat_add]
    apply Nat.mod_eq_of_lt
    omega
  refine ⟨hlow, hstop, ?_, ?_⟩
  · rw [← hstop, ← h.hi]
    exact Nat.le_of_lt (UInt64.lt_iff_toNat_lt.mp (UInt64.not_le.mp hfits))
  · intro hzero
    rw [hzero, UInt64.toNat_zero] at hlow
    have hlo := A.lo_le_top
    omega

theorem Manages.takes (h : Manages A p past) (hpos : 0 < A.lo) (hhi : A.hi < 2 ^ 47)
    {newAddr size alignment : UInt64} {zero : Int32} {k : Nat} (hsize : size.toNat < 2 ^ 63)
    (halign : alignment.toNat = 2 ^ k)
    (hfits : ¬ p.master.endAddr ≤ p.master.alignedTop alignment + size) :
    let r := extentAllocHook p newAddr size alignment zero
    let e := { call := .alloc newAddr size alignment zero, result := .extent r.1 : HookEvent }
    exists A', A'.lo = A.lo ∧ A'.hi = A.hi ∧ Manages A' r.2 (past ++ [e]) ∧
      SafeCall A.lo A.hi p past e r.2 := by
  have hret := toNat_alignedTop (h.bounds hhi) halign
  rcases h.room hpos hhi hsize halign hfits with ⟨hlow, hstop, hfit, hne⟩
  simp only [extentAllocHook_fits newAddr zero hfits]
  generalize p.master.alignedTop alignment = ret at *
  let x : Extent := { addr := ret.toNat, size := size.toNat }
  have hgranted : ({ call := .alloc newAddr size alignment zero, result := .extent ret } :
      HookEvent).granted = some x := if_neg hne
  refine ⟨A.grant x hlow hfit, rfl, rfl, ⟨hstop, h.hi, ?_⟩, ?_⟩
  · rw [grantedIn_concat, hgranted, h.granted]
    rfl
  · exact
      { aligned := by
          intro newAddr' size' alignment' zero' addr he
          cases he
          rw [hret]
          apply dvd_roundUp
          rw [halign]
          exact Nat.two_pow_pos k
        inside := by
          intro y hy
          rw [hgranted] at hy
          cases hy
          exact ⟨Nat.le_trans A.lo_le_top hlow, hfit⟩
        apart := by
          intro y hy z hz a ha
          rw [hgranted] at hy
          cases hy
          rw [h.granted] at hz
          exact Extent.Apart.not_holds (Or.inl (A.before_of_granted hz hlow)) ha
        advances := by
          rw [UInt64.le_iff_toNat_le, hstop, h.top]
          exact Nat.le_trans hlow (Nat.le_add_right _ _)
        bounded := by
          rw [hstop]
          exact hfit
        fails := by
          intro hnull
          cases hnull
          exact absurd rfl hne
        zeroes := by
          intro a ha
          refine ⟨x, hgranted, ?_⟩
          split at ha
          · exact memset_ne ha
          · exact absurd rfl ha }

theorem Manages.serve (h : Manages A p past) (hpos : 0 < A.lo) (hhi : A.hi < 2 ^ 47)
    {c : HookCall} (hc : c.Admissible) :
    exists r p' A', serveHook p c = some (r, p') ∧ A'.lo = A.lo ∧ A'.hi = A.hi ∧
      Manages A' p' (past ++ [{ call := c, result := r }]) ∧
      SafeCall A.lo A.hi p past { call := c, result := r } p' := by
  have hidle : forall r : HookResult, (forall addr, r = .extent addr -> addr = 0) ->
      serveHook p c = some (r, p) -> exists r p' A', serveHook p c = some (r, p') ∧
        A'.lo = A.lo ∧ A'.hi = A.hi ∧ Manages A' p' (past ++ [{ call := c, result := r }]) ∧
        SafeCall A.lo A.hi p past { call := c, result := r } p' := by
    intro r hnull hserve
    have hsafe := @Manages.idle A p past h { call := c, result := r } hnull
    exact ⟨r, p, A, hserve, rfl, rfl, hsafe.1, hsafe.2⟩
  have hcode : forall n addr, HookResult.code n = .extent addr -> addr = 0 := by
    intro n addr hne
    cases hne
  cases c with
  | alloc newAddr size alignment zero =>
      rcases hc with ⟨hsize, k, halign⟩
      have hserve := @serveHook_alloc p newAddr size alignment zero (ne_zero_of_exponent halign)
      by_cases hfull : p.master.endAddr ≤ p.master.alignedTop alignment + size
      · rw [extentAllocHook_full newAddr zero hfull] at hserve
        apply hidle (.extent 0) _ hserve
        intro addr heq
        cases heq
        rfl
      · rcases h.takes hpos hhi hsize halign hfull with ⟨A', hlo, hhi, hmanages, hsafe⟩
        exact ⟨_, _, A', hserve, hlo, hhi, hmanages, hsafe⟩
  | dalloc addr size => exact hidle _ (hcode _) rfl
  | destroy addr size =>
      apply hidle .none _ rfl
      intro addr hne
      cases hne
  | commit addr size offset length => exact hidle _ (hcode _) rfl
  | decommit addr size offset length => exact hidle _ (hcode _) rfl
  | purgeLazy addr size offset length => exact hidle _ (hcode _) rfl
  | purgeForced addr size offset length => exact hidle _ (hcode _) rfl
  | split addr size sizeA sizeB => exact hidle _ (hcode _) rfl
  | merge addrA sizeA addrB sizeB => exact hidle _ (hcode _) rfl

end Calls

/-!
## Runs
-/

def HasArena (lo hi : Nat) (p : Process) (past : List HookEvent) : Prop :=
  exists A : Arena, A.lo = lo ∧ A.hi = hi ∧ Manages A p past

theorem HasArena.start {memAddr memSize : UInt64} (mem : Memory)
    (hend : memAddr.toNat + memSize.toNat < 2 ^ 47) :
    HasArena memAddr.toNat (memAddr.toNat + memSize.toNat)
      (Process.start memAddr memSize mem) [] := by
  refine ⟨Arena.fresh memAddr.toNat (memAddr.toNat + memSize.toNat) (Nat.le_add_right _ _),
    rfl, rfl, rfl, ?_, rfl⟩
  change (memAddr + memSize).toNat = _
  rw [UInt64.toNat_add]
  apply Nat.mod_eq_of_lt
  exact Nat.lt_trans hend (by decide)

theorem hookStep_some {p p' : Process} {c : HookCall} {now : List HookEvent}
    (h : hookStep p c = some (p', now)) :
    exists r, serveHook p c = some (r, p') ∧ now = [{ call := c, result := r }] := by
  rcases Option.map_eq_some_iff.mp h with ⟨⟨r, q⟩, hserve, heq⟩
  cases heq
  exact ⟨r, hserve, rfl⟩

theorem HasArena.step {lo hi : Nat} (hpos : 0 < lo) (hhi : hi < 2 ^ 47) {p p' : Process}
    {past now : List HookEvent} {c : HookCall} (h : HasArena lo hi p past)
    (hc : c.Admissible) (hstep : hookStep p c = some (p', now)) :
    HasArena lo hi p' (past ++ now) := by
  rcases h with ⟨A, rfl, rfl, hmanages⟩
  rcases hmanages.serve hpos hhi hc with ⟨r, q, A', hserve, hlo, hhi', hmanages', _⟩
  rcases hookStep_some hstep with ⟨r', hserve', rfl⟩
  rw [hserve] at hserve'
  cases hserve'
  exact ⟨A', hlo, hhi', hmanages'⟩

theorem hookStep_total {p : Process} {c : HookCall} (hc : c.Admissible) :
    exists p' now, hookStep p c = some (p', now) := by
  unfold hookStep
  cases c with
  | alloc newAddr size alignment zero =>
      rcases hc with ⟨_, k, halign⟩
      rw [serveHook_alloc p (ne_zero_of_exponent halign)]
      exact ⟨_, _, rfl⟩
  | _ => exact ⟨_, _, rfl⟩

/-- A heap that does not start at address zero is safe after every run of calls. -/
theorem bump_safe (memAddr memSize : UInt64) (mem : Memory) (calls : List HookCall)
    (hstart : 0 < memAddr) (hend : memAddr.toNat + memSize.toNat < 2 ^ 47)
    (hcalls : forall c, c ∈ calls -> c.Admissible) : SafeAfter memAddr memSize mem calls := by
  have hpos : 0 < memAddr.toNat := UInt64.lt_iff_toNat_lt.mp hstart
  have hmeets : RunMeets hookStep (fun _ c => c.Admissible)
      (Process.start memAddr memSize mem) calls := runMeets_of_forall (fun c hc _ => hcalls c hc) _
  rcases runFrom_total (fun _ _ hc => hookStep_total hc) hmeets with ⟨p, past, hrun⟩
  have harena := runFrom_invariant (fun _ _ _ _ _ h hc hs => h.step hpos hend hc hs)
    (HasArena.start mem hend) hmeets hrun
  rw [List.nil_append] at harena
  rcases harena with ⟨A, hlo, hhi, hmanages⟩
  refine ⟨p, past, hrun, ?_, ?_, ?_⟩
  · rw [UInt64.le_iff_toNat_le, hmanages.top, ← hlo]
    exact A.lo_le_top
  · rw [hmanages.top, ← hhi]
    exact A.top_le_hi
  · intro c hc
    rw [← hlo] at hpos
    rw [← hhi] at hend
    rcases hmanages.serve hpos hend hc with ⟨r, p', _, hserve, _, _, _, hsafe⟩
    rw [hlo, hhi] at hsafe
    exact ⟨r, p', hserve, hsafe⟩

theorem bump_safe_page : SafeAfter 4096 65536 (fun _ => 0) [.alloc 0 4096 4096 1] := by
  apply bump_safe 4096 65536 (fun _ => 0) [.alloc 0 4096 4096 1] (by decide) (by decide)
  intro c hc
  rw [List.mem_singleton.mp hc]
  exact ⟨by decide, 12, by decide⟩

/-- At address zero the first extent is null, and the heap top has moved. -/
theorem not_bump_safe_null :
    ¬ forall (memAddr memSize : UInt64) (mem : Memory) (calls : List HookCall),
      memAddr.toNat + memSize.toNat < 2 ^ 47 -> (forall c, c ∈ calls -> c.Admissible) ->
        SafeAfter memAddr memSize mem calls := by
  intro h
  rcases h 0 65536 (fun _ => 0) [] (by decide) (fun c hc => by cases hc) with
    ⟨p, past, hrun, _, _, hsafe⟩
  cases hrun
  rcases hsafe (.alloc 0 4096 4096 0) ⟨by decide, 12, by decide⟩ with ⟨r, p', hserve, hsafe⟩
  have hserved : (serveHook (Process.start 0 65536 fun _ => 0) (.alloc 0 4096 4096 0)).map
      (fun s => (s.1, s.2.master.heapTop)) = some (.extent 0, 4096) := by
    decide +kernel
  rw [hserve] at hserved
  have hpair : (r, p'.master.heapTop) = (.extent 0, 4096) := Option.some.inj hserved
  have hfails := hsafe.fails (congrArg Prod.fst hpair)
  have htop : p'.master.heapTop = 4096 := congrArg Prod.snd hpair
  rw [htop] at hfails
  exact absurd hfails (by decide)

end Allocator
end Dmerge
