import Mathlib.Data.List.Pairwise

/-!
# Arenas

An arena hands out extents of a range of addresses from its low end to its high end.
It never goes back, so what it hands out is apart from all that it handed out before.
The cursor is moved up to the next multiple of the alignment first.
-/

namespace Dmerge
namespace Foundation

structure Extent where
  addr : Nat
  size : Nat
  deriving DecidableEq, Repr

namespace Extent

def stop (e : Extent) : Nat := e.addr + e.size

def Before (e e' : Extent) : Prop := e.stop ≤ e'.addr

def Apart (e e' : Extent) : Prop := e.Before e' ∨ e'.Before e

def Holds (e : Extent) (x : Nat) : Prop := e.addr ≤ x ∧ x < e.stop

def Inside (e : Extent) (lo hi : Nat) : Prop := lo ≤ e.addr ∧ e.stop ≤ hi

theorem Before.trans_addr {e e' : Extent} {top : Nat} (h : e.stop ≤ top) (htop : top ≤ e'.addr) :
    e.Before e' :=
  Nat.le_trans h htop

theorem Inside.widen {e : Extent} {lo hi hi' : Nat} (h : e.Inside lo hi) (hle : hi ≤ hi') :
    e.Inside lo hi' :=
  ⟨h.1, Nat.le_trans h.2 hle⟩

theorem Apart.not_holds {e e' : Extent} {x : Nat} (h : e.Apart e') (hx : e.Holds x) :
    ¬ e'.Holds x := by
  rintro ⟨hlow, hhigh⟩
  cases h with
  | inl hbefore => exact Nat.lt_irrefl x (Nat.lt_of_lt_of_le hx.2 (Nat.le_trans hbefore hlow))
  | inr hafter => exact Nat.lt_irrefl x (Nat.lt_of_lt_of_le hhigh (Nat.le_trans hafter hx.1))

end Extent

structure Arena where
  lo : Nat
  top : Nat
  hi : Nat
  granted : List Extent
  lo_le_top : lo ≤ top
  top_le_hi : top ≤ hi
  inside : forall e, e ∈ granted -> e.Inside lo top
  inOrder : granted.Pairwise Extent.Before

namespace Arena

def fresh (lo hi : Nat) (h : lo ≤ hi) : Arena where
  lo := lo
  top := lo
  hi := hi
  granted := []
  lo_le_top := Nat.le_refl lo
  top_le_hi := h
  inside := fun _ he => by cases he
  inOrder := List.Pairwise.nil

theorem before_of_granted (A : Arena) {e next : Extent} (he : e ∈ A.granted)
    (hlow : A.top ≤ next.addr) : e.Before next :=
  Extent.Before.trans_addr (A.inside e he).2 hlow

def grant (A : Arena) (next : Extent) (hlow : A.top ≤ next.addr) (hfit : next.stop ≤ A.hi) :
    Arena where
  lo := A.lo
  top := next.stop
  hi := A.hi
  granted := A.granted ++ [next]
  lo_le_top := Nat.le_trans A.lo_le_top (Nat.le_trans hlow (Nat.le_add_right _ _))
  top_le_hi := hfit
  inside := by
    intro e he
    rcases List.mem_append.mp he with hold | hnew
    · exact (A.inside e hold).widen (Nat.le_trans hlow (Nat.le_add_right _ _))
    · rw [List.mem_singleton.mp hnew]
      exact ⟨Nat.le_trans A.lo_le_top hlow, Nat.le_refl _⟩
  inOrder := by
    apply List.pairwise_append.mpr
    refine ⟨A.inOrder, List.pairwise_singleton _ _, ?_⟩
    intro e he e' he'
    rw [List.mem_singleton.mp he']
    exact A.before_of_granted he hlow

end Arena

/-!
## Alignment
-/

def roundUp (n align : Nat) : Nat :=
  if n % align ≠ 0 then n + (align - n % align) else n

theorem le_roundUp (n align : Nat) : n ≤ roundUp n align := by
  unfold roundUp
  split
  · exact Nat.le_add_right _ _
  · exact Nat.le_refl n

theorem dvd_roundUp {n align : Nat} (hpos : 0 < align) : align ∣ roundUp n align := by
  unfold roundUp
  split
  · have hmod := Nat.mod_lt n hpos
    have hdiv := Nat.div_add_mod n align
    refine ⟨n / align + 1, ?_⟩
    rw [Nat.mul_add, Nat.mul_one]
    omega
  · next hzero => exact Nat.dvd_of_mod_eq_zero (not_not.mp hzero)

theorem roundUp_le_of_dvd {n align m : Nat} (hpos : 0 < align) (hdvd : align ∣ m) (hle : n ≤ m) :
    roundUp n align ≤ m := by
  unfold roundUp
  split
  · next hmod =>
      rcases hdvd with ⟨c, rfl⟩
      have hlt := Nat.mod_lt n hpos
      have hdiv := Nat.div_add_mod n align
      have hmul : align * (n / align) < align * c := by
        omega
      have hquot : n / align < c := Nat.lt_of_mul_lt_mul_left hmul
      have hnext : align * (n / align + 1) ≤ align * c := Nat.mul_le_mul_left align hquot
      rw [Nat.mul_add, Nat.mul_one] at hnext
      omega
  · exact hle

end Foundation
end Dmerge
