import Dmerge.Allocator.BumpSafety

/-!
# Using up the heap

A request is refused if its extent would reach the end of the heap.  An extent that ends
exactly there would still fit, so the last bytes of a heap are never handed out.  Nothing is
assumed here about the words: the statements hold after calls that have wrapped around, too.
-/

namespace Dmerge
namespace Allocator

open Foundation

def AllocatorMaster.firstExtent (m : AllocatorMaster) (size alignment : UInt64) : Extent where
  addr := roundUp m.heapTop.toNat alignment.toNat
  size := size.toNat

def AllocatorMaster.Fits (m : AllocatorMaster) (size alignment : UInt64) : Prop :=
  (m.firstExtent size alignment).Inside m.heapTop.toNat m.endAddr.toNat

structure IsRequest (newAddr size alignment : UInt64) : Prop where
  anywhere : newAddr = 0
  size_pos : 1 ≤ size
  exponent : exists k, alignment.toNat = 2 ^ k

/-- A request is answered with null only if it does not fit. -/
def RefusesOnlyFull (p : Process) : HookCall -> Prop
  | .alloc newAddr size alignment zero => IsRequest newAddr size alignment ->
      (extentAllocHook p newAddr size alignment zero).1 = 0 -> ¬ p.master.Fits size alignment
  | _ => True

/-- The extent of a request does not end where the heap ends, and it would not start at
address zero. -/
def StopsShort (p : Process) : HookCall -> Prop
  | .alloc newAddr size alignment _ => IsRequest newAddr size alignment ->
      (p.master.firstExtent size alignment).stop ≠ p.master.endAddr.toNat ∧
        (p.master.heapTop = 0 -> ¬ p.master.Fits size alignment)
  | _ => True

/-!
## One request
-/

section Requests

variable {p : Process} {newAddr size alignment : UInt64}

theorem AllocatorMaster.Fits.toNat {m : AllocatorMaster} (hfits : m.Fits size alignment)
    (hne : alignment ≠ 0) :
    (m.alignedTop alignment).toNat = (m.firstExtent size alignment).addr ∧
      (m.alignedTop alignment + size).toNat = (m.firstExtent size alignment).stop := by
  have hend := m.endAddr.toNat_lt
  have hstop : (m.firstExtent size alignment).stop ≤ m.endAddr.toNat := hfits.2
  unfold AllocatorMaster.firstExtent Extent.stop at *
  simp only at hstop
  have haddr : (m.alignedTop alignment).toNat = roundUp m.heapTop.toNat alignment.toNat := by
    rw [toNat_alignedTop_mod m hne]
    apply Nat.mod_eq_of_lt
    omega
  constructor
  · exact haddr
  · rw [UInt64.toNat_add, haddr]
    apply Nat.mod_eq_of_lt
    omega

theorem extentAllocHook_eq_zero_iff (zero : Int32) (hne : alignment ≠ 0)
    (hfits : p.master.Fits size alignment) :
    (extentAllocHook p newAddr size alignment zero).1 = 0 <->
      (p.master.firstExtent size alignment).stop = p.master.endAddr.toNat ∨
        p.master.heapTop = 0 := by
  rcases hfits.toNat hne with ⟨haddr, hstop⟩
  have hle : (p.master.firstExtent size alignment).stop ≤ p.master.endAddr.toNat := hfits.2
  by_cases hfull : p.master.endAddr ≤ p.master.alignedTop alignment + size
  · rw [extentAllocHook_full newAddr zero hfull]
    rw [UInt64.le_iff_toNat_le, hstop] at hfull
    exact ⟨fun _ => Or.inl (Nat.le_antisymm hle hfull), fun _ => rfl⟩
  · rw [extentAllocHook_fits newAddr zero hfull]
    rw [UInt64.le_iff_toNat_le, hstop] at hfull
    constructor
    · intro hzero
      apply Or.inr
      change p.master.alignedTop alignment = 0 at hzero
      rw [hzero, UInt64.toNat_zero] at haddr
      have hlow : p.master.heapTop.toNat ≤ (p.master.firstExtent size alignment).addr :=
        le_roundUp _ _
      rw [← haddr] at hlow
      exact UInt64.toNat_inj.mp (Nat.le_zero.mp hlow)
    · intro h
      cases h with
      | inl hend => exact absurd (Nat.le_of_eq hend.symm) hfull
      | inr htop =>
          change p.master.alignedTop alignment = 0
          unfold AllocatorMaster.alignedTop
          simp [htop]

theorem refusesOnlyFull_iff (p : Process) (c : HookCall) :
    RefusesOnlyFull p c <-> StopsShort p c := by
  cases c with
  | alloc newAddr size alignment zero =>
      apply forall_congr'
      intro hrequest
      rcases hrequest.exponent with ⟨k, halign⟩
      have hne := ne_zero_of_exponent halign
      constructor
      · intro hrefuses
        constructor
        · intro hstop
          have hfits : p.master.Fits size alignment := ⟨le_roundUp _ _, Nat.le_of_eq hstop⟩
          exact hrefuses ((extentAllocHook_eq_zero_iff zero hne hfits).mpr (Or.inl hstop)) hfits
        · intro htop hfits
          exact hrefuses ((extentAllocHook_eq_zero_iff zero hne hfits).mpr (Or.inr htop)) hfits
      · rintro ⟨hstop, htop⟩ hnull hfits
        cases (extentAllocHook_eq_zero_iff zero hne hfits).mp hnull with
        | inl hend => exact hstop hend
        | inr hzero => exact htop hzero hfits
  | _ => exact Iff.rfl

end Requests

/-!
## Requests of whole pages
-/

/-- Requests under one alignment, each with a size and its zero flag. -/
def pageRequests (page : UInt64) (requests : List (UInt64 × Int32)) : List HookCall :=
  requests.map fun r => .alloc 0 r.1 page r.2

/-- No call of a run is answered with null. -/
def GrantedInFull (p : Process) (calls : List HookCall) : Prop :=
  exists q past, runFrom hookStep p calls = some (q, past) ∧
    forall e, e ∈ past -> e.result ≠ .extent 0

theorem GrantedInFull.cons {p p' : Process} {c : HookCall} {e : HookEvent}
    {calls : List HookCall} (hstep : hookStep p c = some (p', [e])) (he : e.result ≠ .extent 0)
    (hrest : GrantedInFull p' calls) : GrantedInFull p (c :: calls) := by
  rcases hrest with ⟨q, later, hrun, hgranted⟩
  refine ⟨q, e :: later, ?_, ?_⟩
  · simp only [runFrom, hstep, hrun]
    rfl
  · intro e' he'
    rcases List.mem_cons.mp he' with rfl | hlater
    · exact he
    · exact hgranted e' hlater

/-- Every size is a positive multiple of the page. -/
def WholePages (page : UInt64) (requests : List (UInt64 × Int32)) : Prop :=
  forall r, r ∈ requests -> 1 ≤ r.1 ∧ page.toNat ∣ r.1.toNat

instance WholePages.decidable (page : UInt64) (requests : List (UInt64 × Int32)) :
    Decidable (WholePages page requests) :=
  List.decidableBAll (fun r : UInt64 × Int32 => 1 ≤ r.1 ∧ page.toNat ∣ r.1.toNat) requests

def totalSize (requests : List (UInt64 × Int32)) : Nat :=
  (requests.map fun r => r.1.toNat).sum

section Pages

variable {page : UInt64} {k : Nat} {p q : Process} {past : List HookEvent}

theorem pageSize_dvd_word (hpage : page.toNat = 2 ^ k) : page.toNat ∣ 2 ^ 64 := by
  rw [hpage]
  exact Nat.pow_dvd_pow 2 (Nat.le_succ_of_le (exponent_le hpage))

theorem page_dvd_add (hpage : page.toNat = 2 ^ k) {top size : UInt64}
    (htop : page.toNat ∣ top.toNat) (hsize : page.toNat ∣ size.toNat) :
    page.toNat ∣ (top + size).toNat := by
  rw [UInt64.toNat_add]
  exact (Nat.dvd_mod_iff (pageSize_dvd_word hpage)).mpr (Nat.dvd_add htop hsize)

theorem alignedTop_of_dvd {m : AllocatorMaster} (htop : page.toNat ∣ m.heapTop.toNat) :
    m.alignedTop page = m.heapTop := by
  have hzero : m.heapTop % page = 0 := by
    rw [UInt64.toNat_inj.symm, UInt64.toNat_mod]
    exact Nat.mod_eq_zero_of_dvd htop
  exact if_neg (not_not.mpr hzero)

theorem hookStep_page (hpage : page.toNat = 2 ^ k) (r : UInt64 × Int32)
    (htop : page.toNat ∣ p.master.heapTop.toNat) :
    hookStep p (.alloc 0 r.1 page r.2) =
      if p.master.endAddr ≤ p.master.heapTop + r.1 then
        some (p, [{ call := .alloc 0 r.1 page r.2, result := .extent 0 }])
      else
        some ((extentAllocHook p 0 r.1 page r.2).2,
          [{ call := .alloc 0 r.1 page r.2, result := .extent p.master.heapTop }]) := by
  have halign := alignedTop_of_dvd htop
  unfold hookStep
  rw [serveHook_alloc p (ne_zero_of_exponent hpage)]
  split
  · next hfull =>
      rw [← halign] at hfull
      rw [extentAllocHook_full 0 r.2 hfull]
      rfl
  · next hfits =>
      rw [← halign] at hfits
      rw [extentAllocHook_fits 0 r.2 hfits, ← halign]
      rfl

theorem extentAllocHook_page (r : UInt64 × Int32) (htop : page.toNat ∣ p.master.heapTop.toNat)
    (hfits : ¬ p.master.endAddr ≤ p.master.heapTop + r.1) :
    (extentAllocHook p 0 r.1 page r.2).2.master =
      { p.master with heapTop := p.master.heapTop + r.1 } := by
  rw [← alignedTop_of_dvd htop] at hfits
  rw [extentAllocHook_fits 0 r.2 hfits, alignedTop_of_dvd htop]

theorem run_granted (hpage : page.toNat = 2 ^ k) {requests : List (UInt64 × Int32)}
    (hwhole : WholePages page requests) (htop : page.toNat ∣ p.master.heapTop.toNat)
    (hrun : runFrom hookStep p (pageRequests page requests) = some (q, past))
    (hgranted : forall e, e ∈ past -> e.result ≠ .extent 0) :
    q.master.endAddr = p.master.endAddr ∧
      q.master.heapTop.toNat = (p.master.heapTop.toNat + totalSize requests) % 2 ^ 64 ∧
      (requests ≠ [] -> q.master.heapTop < q.master.endAddr) := by
  induction requests generalizing p past with
  | nil =>
      cases hrun
      exact ⟨rfl, (Nat.mod_eq_of_lt q.master.heapTop.toNat_lt).symm, fun h => absurd rfl h⟩
  | cons r rest ih =>
      rcases runFrom_cons_some hrun with ⟨p', now, later, hstep, hrest, rfl⟩
      rw [hookStep_page hpage r htop] at hstep
      by_cases hfull : p.master.endAddr ≤ p.master.heapTop + r.1
      · rw [if_pos hfull] at hstep
        cases hstep
        exact absurd rfl (hgranted _ (List.mem_append_left _ List.mem_cons_self))
      · rw [if_neg hfull] at hstep
        cases hstep
        have hmaster := extentAllocHook_page r htop hfull
        have hsize := hwhole r List.mem_cons_self
        have htop' := page_dvd_add hpage htop hsize.2
        have hih := ih (fun s hs => hwhole s (List.mem_cons_of_mem r hs))
          (by rw [hmaster]; exact htop') hrest
          (fun e he => hgranted e (List.mem_append_right _ he))
        rw [hmaster] at hih
        rcases hih with ⟨hend, hmoved, hbelow⟩
        refine ⟨hend, ?_, fun _ => ?_⟩
        · rw [hmoved]
          change ((p.master.heapTop + r.1).toNat + totalSize rest) % 2 ^ 64 =
            (p.master.heapTop.toNat + (r.1.toNat + totalSize rest)) % 2 ^ 64
          rw [UInt64.toNat_add, Nat.mod_add_mod, Nat.add_assoc]
        · cases rest with
          | nil =>
              cases hrest
              rw [hmaster]
              exact UInt64.not_le.mp hfull
          | cons s rest => exact hbelow (List.cons_ne_nil s rest)

theorem grantedInFull_of_below (hpage : page.toNat = 2 ^ k)
    {requests : List (UInt64 × Int32)} (hwhole : WholePages page requests)
    (htop : page.toNat ∣ p.master.heapTop.toNat) (hpos : 0 < p.master.heapTop.toNat)
    (hbelow : p.master.heapTop.toNat + totalSize requests < p.master.endAddr.toNat) :
    GrantedInFull p (pageRequests page requests) := by
  induction requests generalizing p with
  | nil => exact ⟨p, [], rfl, fun e he => by cases he⟩
  | cons r rest ih =>
      have hword := p.master.endAddr.toNat_lt
      have htotal : totalSize (r :: rest) = r.1.toNat + totalSize rest := rfl
      have hmoved : (p.master.heapTop + r.1).toNat = p.master.heapTop.toNat + r.1.toNat := by
        rw [UInt64.toNat_add]
        apply Nat.mod_eq_of_lt
        omega
      have hfits : ¬ p.master.endAddr ≤ p.master.heapTop + r.1 := by
        rw [UInt64.le_iff_toNat_le, hmoved]
        omega
      have hsize := hwhole r List.mem_cons_self
      have hmaster := extentAllocHook_page r htop hfits
      have hrest : GrantedInFull (extentAllocHook p 0 r.1 page r.2).2
          (pageRequests page rest) := by
        apply ih (fun s hs => hwhole s (List.mem_cons_of_mem r hs))
        · rw [hmaster]
          exact page_dvd_add hpage htop hsize.2
        · rw [hmaster]
          change 0 < (p.master.heapTop + r.1).toNat
          omega
        · rw [hmaster]
          change (p.master.heapTop + r.1).toNat + totalSize rest < p.master.endAddr.toNat
          omega
      have hstep := hookStep_page hpage r htop
      rw [if_neg hfits] at hstep
      apply GrantedInFull.cons hstep _ hrest
      intro hnull
      rw [HookResult.extent.inj hnull] at hpos
      exact absurd hpos (Nat.lt_irrefl _)

theorem not_grantedInFull_of_total (hpage : page.toNat = 2 ^ k) {memAddr memSize : UInt64}
    (mem : Memory) {requests : List (UInt64 × Int32)} (hwhole : WholePages page requests)
    (hstart : page.toNat ∣ memAddr.toNat) (htotal : totalSize requests = memSize.toNat)
    (hne : requests ≠ []) :
    ¬ GrantedInFull (Process.start memAddr memSize mem) (pageRequests page requests) := by
  rintro ⟨q, past, hrun, hgranted⟩
  rcases run_granted hpage hwhole hstart hrun hgranted with ⟨hend, hmoved, hbelow⟩
  have hfilled : q.master.heapTop.toNat = q.master.endAddr.toNat := by
    rw [hmoved, hend, htotal]
    exact (UInt64.toNat_add memAddr memSize).symm
  exact absurd hfilled (Nat.ne_of_lt (UInt64.lt_iff_toNat_lt.mp (hbelow hne)))

end Pages

/-!
## The end of the heap
-/

theorem grantedInFull_iff_lt {page memAddr memSize : UInt64} {k : Nat} (mem : Memory)
    (hpage : page.toNat = 2 ^ k) {requests : List (UInt64 × Int32)}
    (hwhole : WholePages page requests) (hstart : page.toNat ∣ memAddr.toNat)
    (hpos : 0 < memAddr.toNat) (hend : memAddr.toNat + memSize.toNat < 2 ^ 64)
    (hne : requests ≠ []) (hle : totalSize requests ≤ memSize.toNat) :
    GrantedInFull (Process.start memAddr memSize mem) (pageRequests page requests) <->
      totalSize requests < memSize.toNat := by
  constructor
  · intro hgranted
    apply Nat.lt_of_le_of_ne hle
    intro htotal
    exact not_grantedInFull_of_total hpage mem hwhole hstart htotal hne hgranted
  · intro hlt
    apply grantedInFull_of_below hpage hwhole hstart hpos
    change memAddr.toNat + totalSize requests < (memAddr + memSize).toNat
    rw [UInt64.toNat_add, Nat.mod_eq_of_lt hend]
    omega

/-- The requests of a run are refused only if they do not fit, exactly if no extent of theirs
would end where the heap ends; whole pages that add up to the heap are never all granted,
unless there are none. -/
theorem used_up_iff (memAddr memSize : UInt64) (mem : Memory) :
    (forall calls,
      RunMeets hookStep RefusesOnlyFull (Process.start memAddr memSize mem) calls <->
        RunMeets hookStep StopsShort (Process.start memAddr memSize mem) calls) ∧
    (forall page requests, (exists k, page.toNat = 2 ^ k) -> page.toNat ∣ memAddr.toNat ->
      WholePages page requests -> totalSize requests = memSize.toNat ->
        (GrantedInFull (Process.start memAddr memSize mem) (pageRequests page requests) <->
          requests = [])) := by
  constructor
  · intro calls
    constructor
    · intro h
      exact h.weaken fun p c => (refusesOnlyFull_iff p c).mp
    · intro h
      exact h.weaken fun p c => (refusesOnlyFull_iff p c).mpr
  · rintro page requests ⟨k, hpage⟩ hstart hwhole htotal
    constructor
    · intro hgranted
      by_contra hne
      exact not_grantedInFull_of_total hpage mem hwhole hstart htotal hne hgranted
    · rintro rfl
      exact ⟨_, [], rfl, fun e he => by cases he⟩

theorem used_up_iff_pages :
    RunMeets hookStep RefusesOnlyFull (Process.start 0x4ffff5a00000 8192 fun _ => 0)
        [.alloc 0 4096 4096 1] ∧
      ¬ GrantedInFull (Process.start 0x4ffff5a00000 8192 fun _ => 0)
        (pageRequests 4096 [(4096, 1), (4096, 1)]) := by
  have h := used_up_iff 0x4ffff5a00000 8192 fun _ => 0
  constructor
  · rw [h.1]
    refine ⟨fun _ => ⟨by decide, fun htop => absurd htop (by decide)⟩, ?_⟩
    intro p now _
    exact True.intro
  · rw [h.2 4096 [(4096, 1), (4096, 1)] ⟨12, by decide⟩ (by decide) (by decide) (by decide)]
    exact List.cons_ne_nil _ _

/-- A heap of one page at the base address of the sample does not give out its page. -/
theorem not_used_up_page :
    ¬ (forall (memAddr memSize : UInt64) (mem : Memory) (calls : List HookCall),
        RunMeets hookStep RefusesOnlyFull (Process.start memAddr memSize mem) calls) ∧
      ¬ GrantedInFull (Process.start 0x4ffff5a00000 4096 fun _ => 0)
        (pageRequests 4096 [(4096, 0)]) := by
  constructor
  · intro h
    have hpage := (h 0x4ffff5a00000 4096 (fun _ => 0) [.alloc 0 4096 4096 0]).1
    have hrequest : IsRequest 0 4096 4096 := ⟨rfl, by decide, 12, by decide⟩
    exact hpage hrequest (by decide) ⟨by decide, by decide⟩
  · have hpage : (4096 : UInt64).toNat = 2 ^ 12 := by decide
    apply not_grantedInFull_of_total hpage (fun _ => 0) (by decide) (by decide) (by decide)
    exact List.cons_ne_nil _ _

end Allocator
end Dmerge
