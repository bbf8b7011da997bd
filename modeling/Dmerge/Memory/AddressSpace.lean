import Mathlib.Data.List.Pairwise
import Mathlib.Data.List.Basic
import Mathlib.Tactic.NormNum

/-!
# The address space of a process

A process is seen through its memory descriptor: the ascending list of its
VMAs and the page-table entry of each page.  A page that is not present has an
entry whose physical address is zero.
-/

namespace Dmerge
namespace Memory

/-- The bytes of one page. -/
def pageSize : Nat := 4096

structure VMA where
  vmStart : UInt64
  vmEnd : UInt64
  vmFlags : UInt64
  vmFile : UInt64
  deriving DecidableEq, Repr

namespace VMA

def getStart (v : VMA) : Nat := v.vmStart.toNat

def getEnd (v : VMA) : Nat := v.vmEnd.toNat

def getFilePtr (v : VMA) : UInt64 := v.vmFile

def Covers (v : VMA) (addr : Nat) : Prop :=
  v.getStart ≤ addr ∧ addr < v.getEnd

instance (v : VMA) (addr : Nat) : Decidable (v.Covers addr) :=
  inferInstanceAs (Decidable (_ ∧ _))

theorem getEnd_lt (v : VMA) : v.getEnd < 2 ^ 64 := v.vmEnd.toNat_lt

def pageAddrs (v : VMA) : List Nat :=
  (List.range ((v.getEnd - v.getStart + (pageSize - 1)) / pageSize)).map
    fun i => v.getStart + pageSize * i

theorem mem_pageAddrs {v : VMA} {addr : Nat} :
    addr ∈ v.pageAddrs <-> v.Covers addr ∧ pageSize ∣ addr - v.getStart := by
  unfold pageAddrs Covers pageSize
  rw [List.mem_map]
  constructor
  · intro h
    rcases h with ⟨i, hi, rfl⟩
    rw [List.mem_range] at hi
    refine ⟨by omega, ?_⟩
    rw [Nat.add_sub_cancel_left]
    exact Nat.dvd_mul_right 4096 i
  · intro h
    rcases h with ⟨hcovers, i, hi⟩
    exact ⟨i, List.mem_range.mpr (by omega), by omega⟩

theorem covers_of_mem_pageAddrs {v : VMA} {addr : Nat} (h : addr ∈ v.pageAddrs) :
    v.Covers addr :=
  (mem_pageAddrs.mp h).1

end VMA

structure AddressSpace where
  vmas : List VMA
  /-- The physical address in the page-table entry of a page. -/
  pte : Nat -> UInt64
  nonempty : forall v, v ∈ vmas -> v.getStart < v.getEnd
  ascending : vmas.Pairwise fun a b => a.getEnd ≤ b.getStart

/-- Every VMA starts and ends on a page boundary. -/
def PageAligned (vmas : List VMA) : Prop :=
  forall v, v ∈ vmas -> pageSize ∣ v.getStart ∧ pageSize ∣ v.getEnd

/-!
## Lists of ascending VMAs

The facts below hold for every sublist of the VMAs of an address space, in
particular for the VMAs of a captured heap.
-/

structure Ascending (vmas : List VMA) : Prop where
  nonempty : forall v, v ∈ vmas -> v.getStart < v.getEnd
  ascending : vmas.Pairwise fun a b => a.getEnd ≤ b.getStart

theorem AddressSpace.ascending_vmas (mm : AddressSpace) : Ascending mm.vmas :=
  ⟨mm.nonempty, mm.ascending⟩

namespace Ascending

theorem sublist {vs ws : List VMA} (hws : Ascending ws) (h : vs.Sublist ws) :
    Ascending vs :=
  ⟨fun v hv => hws.nonempty v (h.subset hv), hws.ascending.sublist h⟩

theorem tail {v : VMA} {vs : List VMA} (h : Ascending (v :: vs)) : Ascending vs :=
  h.sublist (List.sublist_cons_self v vs)

theorem eq_of_covers {vs : List VMA} (h : Ascending vs) {v w : VMA} {addr : Nat}
    (hv : v ∈ vs) (hw : w ∈ vs) (hva : v.Covers addr) (hwa : w.Covers addr) :
    v = w := by
  have hdisjoint : vs.Pairwise fun a b => ¬ (a.Covers addr ∧ b.Covers addr) := by
    refine h.ascending.imp ?_
    intro a b hab hboth
    exact absurd (hboth.1.2) (Nat.not_lt.mpr (le_trans hab hboth.2.1))
  by_contra hne
  rcases List.pairwise_iff_getElem.mp hdisjoint with hpair
  rcases List.mem_iff_getElem.mp hv with ⟨i, hi, rfl⟩
  rcases List.mem_iff_getElem.mp hw with ⟨j, hj, rfl⟩
  rcases Nat.lt_trichotomy i j with hij | hij | hij
  · exact hpair i j hi hj hij ⟨hva, hwa⟩
  · subst hij
    exact hne rfl
  · exact hpair j i hj hi hij ⟨hwa, hva⟩

theorem length_add_le {vs : List VMA} (h : Ascending vs) (lo hi : Nat)
    (hlo : forall v, v ∈ vs -> lo ≤ v.getStart)
    (hhi : forall v, v ∈ vs -> v.getEnd ≤ hi) (hle : lo ≤ hi) :
    lo + vs.length ≤ hi := by
  induction vs generalizing lo with
  | nil => simpa using hle
  | cons v rest ih =>
      have hv := h.nonempty v List.mem_cons_self
      have hvlo := hlo v List.mem_cons_self
      have hvhi := hhi v List.mem_cons_self
      have hafter : forall w, w ∈ rest -> v.getEnd ≤ w.getStart :=
        (List.pairwise_cons.mp h.ascending).1
      have hrest := ih h.tail v.getEnd hafter
        (fun w hw => hhi w (List.mem_cons_of_mem v hw)) hvhi
      rw [List.length_cons]
      omega

theorem length_lt {vs : List VMA} (h : Ascending vs) : vs.length < 2 ^ 64 := by
  have hbound := h.length_add_le 0 (2 ^ 64 - 1)
    (fun _ _ => Nat.zero_le _) (fun v _ => Nat.le_pred_of_lt v.getEnd_lt) (Nat.zero_le _)
  omega

end Ascending
end Memory
end Dmerge
