import Dmerge.Kernel.OwnerProtocol

/-!
# Who owns a key

What a run does with keys is read off its events.  The invariant ties the
events to the identifier counter, to the hints of the handlers and to the
registry: a key is issued once, registered at most once and by the handle it
was issued to, and it stays in the registry as long as its handle keeps it.
-/

namespace Dmerge
namespace Kernel

open Foundation Memory Descriptors Producer

variable {Regs Rdma : Type} {bufSize : Nat}

/-!
## The key in hand
-/

def handStep (self : Nat) (hand : KeyInHand) : Event Regs Rdma -> KeyInHand
  | .started self' _ => if self' = self then .idle else hand
  | .issued self' key => if self' = self then .allocated key else hand
  | .registered self' key reg =>
      if self' = self then .held key reg.heapStartAddr else hand
  | .adopted self' _ => if self' = self then .idle else hand
  | .unregistered self' _ => if self' = self then .idle else hand
  | _ => hand

def inHand (past : List (Event Regs Rdma)) (self : Nat) : KeyInHand :=
  past.foldl (handStep self) .idle

theorem inHand_snoc (past : List (Event Regs Rdma)) (e : Event Regs Rdma) (self : Nat) :
    inHand (past ++ [e]) self = handStep self (inHand past self) e := by
  unfold inHand
  rw [List.foldl_append]
  rfl

/-- What a handle owns after a run. -/
def ownerView (s : ModuleState Regs Rdma bufSize) (past : List (Event Regs Rdma))
    (self : Nat) : OwnerView where
  hint := s.hintOf self
  inHand := inHand past self

/-!
## The invariant
-/

def HandOwned (lib : KernelLib Regs Rdma) (s : ModuleState Regs Rdma bufSize)
    (past : List (Event Regs Rdma)) (self : Nat) : KeyInHand -> Prop
  | .idle => True
  | .allocated key =>
      Event.issued self key ∈ past ∧
        forall self' reg, Event.registered self' key reg ∉ past
  | .held key heapStart => exists reg,
      Event.registered self key reg ∈ past ∧ reg.heapStartAddr = heapStart ∧
        s.bundle key = some (reg.bundler lib) ∧ s.hintOf self ≠ some key

structure KeysOwned (lib : KernelLib Regs Rdma) (s : ModuleState Regs Rdma bufSize)
    (past : List (Event Regs Rdma)) : Prop where
  issued_le : forall self key, Event.issued self key ∈ past ->
    key.toNat ≤ s.idGen.curId.toNat
  issued_unique : forall self self' key, Event.issued self key ∈ past ->
    Event.issued self' key ∈ past -> self' = self
  registered_issued : forall self key reg, Event.registered self key reg ∈ past ->
    Event.issued self key ∈ past
  registered_unique : forall self self' key reg reg',
    Event.registered self key reg ∈ past -> Event.registered self' key reg' ∈ past ->
      self' = self ∧ reg' = reg
  bundle_registered : forall key b, s.bundle key = some b -> exists self reg,
    Event.registered self key reg ∈ past ∧ b = reg.bundler lib
  hint_own : forall self key, s.hintOf self = some key -> exists reg,
    Event.registered self key reg ∈ past ∧ s.bundle key = some (reg.bundler lib)
  hand_own : forall self, HandOwned lib s past self (inHand past self)

theorem keysOwned_init (lib : KernelLib Regs Rdma) (pool : Pool bufSize) :
    KeysOwned lib (ModuleState.init pool : ModuleState Regs Rdma bufSize) [] where
  issued_le _ _ h := by cases h
  issued_unique _ _ _ h := by cases h
  registered_issued _ _ _ h := by cases h
  registered_unique _ _ _ _ _ h := by cases h
  bundle_registered _ _ h := by cases h
  hint_own _ _ h := by cases h
  hand_own _ := True.intro

section Steps

variable {lib : KernelLib Regs Rdma} {s s' : ModuleState Regs Rdma bufSize}
variable {past : List (Event Regs Rdma)} {self : Nat} {key : UInt64}

theorem HandOwned.stable {past' : List (Event Regs Rdma)} {hand : KeyInHand}
    (h : HandOwned lib s past self hand)
    (hsub : forall e, e ∈ past -> e ∈ past')
    (hnew : forall key, Event.issued self key ∈ past -> forall self' reg,
      Event.registered self' key reg ∈ past' -> Event.registered self' key reg ∈ past)
    (hbundle : forall key reg, Event.registered self key reg ∈ past ->
      s'.bundle key = s.bundle key)
    (hhint : forall key, s'.hintOf self = some key -> s.hintOf self = some key) :
    HandOwned lib s' past' self hand := by
  cases hand with
  | idle => exact True.intro
  | allocated key =>
      exact ⟨hsub _ h.1, fun self' reg hin => h.2 self' reg (hnew key h.1 self' reg hin)⟩
  | held key heapStart =>
      rcases h with ⟨reg, hin, hstart, hb, hne⟩
      refine ⟨reg, hsub _ hin, hstart, ?_, fun hk => hne (hhint key hk)⟩
      rw [hbundle key reg hin, hb]

theorem KeysOwned.change {past' : List (Event Regs Rdma)} (h : KeysOwned lib s past)
    (hissued : forall self key,
      Event.issued self key ∈ past' <-> Event.issued self key ∈ past)
    (hregistered : forall self key reg,
      Event.registered self key reg ∈ past' <-> Event.registered self key reg ∈ past)
    (hid : s'.idGen = s.idGen)
    (hbundle : forall key b, s'.bundle key = some b -> s.bundle key = some b)
    (hhint : forall self key, s'.hintOf self = some key -> exists reg,
      Event.registered self key reg ∈ past' ∧ s'.bundle key = some (reg.bundler lib))
    (hhand : forall self, HandOwned lib s' past' self (inHand past' self)) :
    KeysOwned lib s' past' where
  issued_le self key hin := by
    rw [hid]
    exact h.issued_le self key ((hissued self key).mp hin)
  issued_unique self self' key hin hin' :=
    h.issued_unique self self' key ((hissued self key).mp hin) ((hissued self' key).mp hin')
  registered_issued self key reg hin :=
    (hissued self key).mpr (h.registered_issued self key reg ((hregistered _ _ _).mp hin))
  registered_unique self self' key reg reg' hin hin' :=
    h.registered_unique self self' key reg reg' ((hregistered _ _ _).mp hin)
      ((hregistered _ _ _).mp hin')
  bundle_registered key b hb := by
    rcases h.bundle_registered key b (hbundle key b hb) with ⟨self, reg, hin, hb⟩
    exact ⟨self, reg, (hregistered _ _ _).mpr hin, hb⟩
  hint_own := hhint
  hand_own := hhand

theorem KeysOwned.keep {past' : List (Event Regs Rdma)} (h : KeysOwned lib s past)
    (hsub : forall e, e ∈ past -> e ∈ past')
    (hissued : forall self key,
      Event.issued self key ∈ past' <-> Event.issued self key ∈ past)
    (hregistered : forall self key reg,
      Event.registered self key reg ∈ past' <-> Event.registered self key reg ∈ past)
    (hhand : forall self, inHand past' self = inHand past self ∨ inHand past' self = .idle)
    (hid : s'.idGen = s.idGen)
    (hhint : forall self key, s'.hintOf self = some key -> s.hintOf self = some key)
    (hbundle : forall key, s'.bundle key = s.bundle key) :
    KeysOwned lib s' past' := by
  apply h.change hissued hregistered hid
  · intro key b hb
    rwa [hbundle] at hb
  · intro self key hk
    rcases h.hint_own self key (hhint self key hk) with ⟨reg, hin, hb⟩
    rw [hbundle]
    exact ⟨reg, (hregistered _ _ _).mpr hin, hb⟩
  · intro self
    rcases hhand self with hsame | hidle
    · rw [hsame]
      exact (h.hand_own self).stable hsub (fun key _ self' reg => (hregistered _ _ _).mp)
        (fun key _ _ => hbundle key) (hhint self)
    · rw [hidle]
      exact True.intro

theorem KeysOwned.fresh (h : KeysOwned lib s past) {idGen : IdFactory}
    (hid : s.idGen.allocOneId = some (key, idGen)) :
    (forall self, Event.issued self key ∉ past) ∧
      forall self reg, Event.registered self key reg ∉ past := by
  have hnew : forall self, Event.issued self key ∉ past := by
    intro self hin
    have hle := h.issued_le self key hin
    have hnext := (IdFactory.allocOneId_toNat hid).1
    omega
  exact ⟨hnew, fun self reg hin => hnew self (h.registered_issued self key reg hin)⟩

theorem KeysOwned.issue (h : KeysOwned lib s past) {idGen : IdFactory}
    (hid : s.idGen.allocOneId = some (key, idGen)) (self : Nat) :
    KeysOwned lib { s with idGen := idGen } (past ++ [.issued self key]) where
  issued_le self' key' hin := by
    have hnext := IdFactory.allocOneId_toNat hid
    simp only [List.mem_append, List.mem_singleton, Event.issued.injEq] at hin
    rcases hin with hin | ⟨rfl, rfl⟩
    · have hle := h.issued_le self' key' hin
      simp only [hnext.2, hnext.1]
      omega
    · exact le_of_eq (by rw [hnext.2])
  issued_unique self₁ self₂ key' hin₁ hin₂ := by
    simp only [List.mem_append, List.mem_singleton, Event.issued.injEq] at hin₁ hin₂
    rcases hin₁ with hin₁ | ⟨rfl, rfl⟩
    · rcases hin₂ with hin₂ | ⟨rfl, rfl⟩
      · exact h.issued_unique self₁ self₂ key' hin₁ hin₂
      · exact absurd hin₁ ((h.fresh hid).1 self₁)
    · rcases hin₂ with hin₂ | ⟨rfl, _⟩
      · exact absurd hin₂ ((h.fresh hid).1 self₂)
      · rfl
  registered_issued self' key' reg hin := by
    simp only [List.mem_append, List.mem_singleton, reduceCtorEq, or_false] at hin ⊢
    exact Or.inl (h.registered_issued self' key' reg hin)
  registered_unique self₁ self₂ key' reg reg' hin₁ hin₂ := by
    simp only [List.mem_append, List.mem_singleton, reduceCtorEq, or_false] at hin₁ hin₂
    exact h.registered_unique self₁ self₂ key' reg reg' hin₁ hin₂
  bundle_registered key' b hb := by
    rcases h.bundle_registered key' b hb with ⟨self', reg, hin, hb⟩
    exact ⟨self', reg, List.mem_append_left _ hin, hb⟩
  hint_own self' key' hk := by
    rcases h.hint_own self' key' hk with ⟨reg, hin, hb⟩
    exact ⟨reg, List.mem_append_left _ hin, hb⟩
  hand_own self' := by
    rw [inHand_snoc]
    by_cases hself : self = self'
    · subst hself
      simp only [handStep, if_pos]
      refine ⟨List.mem_append_right _ (List.mem_singleton.mpr rfl), fun self' reg hin => ?_⟩
      simp only [List.mem_append, List.mem_singleton, reduceCtorEq, or_false] at hin
      exact (h.fresh hid).2 self' reg hin
    · simp only [handStep, if_neg hself]
      refine (h.hand_own self').stable (fun _ => List.mem_append_left _) ?_
        (fun _ _ _ => rfl) (fun _ => id)
      intro key' _ self₁ reg hin
      simpa using hin

theorem KeysOwned.register (h : KeysOwned lib s past)
    (hissued : Event.issued self key ∈ past)
    (hnever : forall self' reg, Event.registered self' key reg ∉ past)
    (reg : Registration Regs Rdma) :
    KeysOwned lib (s.register lib key reg) (past ++ [.registered self key reg]) where
  issued_le self' key' hin := by
    simp only [List.mem_append, List.mem_singleton, reduceCtorEq, or_false] at hin
    exact h.issued_le self' key' hin
  issued_unique self₁ self₂ key' hin₁ hin₂ := by
    simp only [List.mem_append, List.mem_singleton, reduceCtorEq, or_false] at hin₁ hin₂
    exact h.issued_unique self₁ self₂ key' hin₁ hin₂
  registered_issued self' key' reg' hin := by
    refine List.mem_append_left _ ?_
    simp only [List.mem_append, List.mem_singleton, Event.registered.injEq] at hin
    rcases hin with hin | ⟨rfl, rfl, _⟩
    · exact h.registered_issued self' key' reg' hin
    · exact hissued
  registered_unique self₁ self₂ key' reg₁ reg₂ hin₁ hin₂ := by
    simp only [List.mem_append, List.mem_singleton, Event.registered.injEq] at hin₁ hin₂
    rcases hin₁ with hin₁ | ⟨rfl, rfl, rfl⟩
    · rcases hin₂ with hin₂ | ⟨rfl, rfl, rfl⟩
      · exact h.registered_unique self₁ self₂ key' reg₁ reg₂ hin₁ hin₂
      · exact absurd hin₁ (hnever self₁ reg₁)
    · rcases hin₂ with hin₂ | ⟨rfl, _, rfl⟩
      · exact absurd hin₂ (hnever self₂ reg₂)
      · exact ⟨rfl, rfl⟩
  bundle_registered key' b hb := by
    rw [ModuleState.bundle_register] at hb
    by_cases hkey : key' = key
    · rw [if_pos hkey] at hb
      cases hb
      exact ⟨self, reg, List.mem_append_right _ (by rw [hkey]; exact List.mem_singleton.mpr rfl),
        rfl⟩
    · rw [if_neg hkey] at hb
      rcases h.bundle_registered key' b hb with ⟨self', reg', hin, hb⟩
      exact ⟨self', reg', List.mem_append_left _ hin, hb⟩
  hint_own self' key' hk := by
    rcases h.hint_own self' key' hk with ⟨reg', hin, hb⟩
    have hkey : key' ≠ key := by
      rintro rfl
      exact hnever self' reg' hin
    refine ⟨reg', List.mem_append_left _ hin, ?_⟩
    rw [ModuleState.bundle_register, if_neg hkey, hb]
  hand_own self' := by
    rw [inHand_snoc]
    by_cases hself : self = self'
    · subst hself
      simp only [handStep, if_pos]
      refine ⟨reg, List.mem_append_right _ (List.mem_singleton.mpr rfl), rfl, ?_, fun hk => ?_⟩
      · rw [ModuleState.bundle_register, if_pos rfl]
      · rcases h.hint_own self key hk with ⟨reg', hin, _⟩
        exact hnever self reg' hin
    · simp only [handStep, if_neg hself]
      refine (h.hand_own self').stable (fun _ => List.mem_append_left _) ?_ ?_ (fun _ => id)
      · intro key' hissued' self₁ reg' hin
        simp only [List.mem_append, List.mem_singleton, Event.registered.injEq] at hin
        rcases hin with hin | ⟨rfl, rfl, _⟩
        · exact hin
        · exact absurd (h.issued_unique _ _ _ hissued' hissued) hself
      · intro key' reg' hin
        have hkey : key' ≠ key := by
          rintro rfl
          exact hnever self' reg' hin
        rw [ModuleState.bundle_register, if_neg hkey]

theorem KeysOwned.adopt (h : KeysOwned lib s past) {heapStart : Nat}
    (hhand : inHand past self = .held key heapStart)
    (hid : s'.idGen = s.idGen)
    (hself : forall key', s'.hintOf self = some key' -> key' = key)
    (hother : forall self', self' ≠ self -> s'.hintOf self' = s.hintOf self')
    (hbundle : forall key, s'.bundle key = s.bundle key) :
    KeysOwned lib s' (past ++ [.adopted self key]) := by
  apply h.change (by simp) (by simp) hid
  · intro key' b hb
    rwa [hbundle] at hb
  · intro self' key' hk
    rw [hbundle]
    by_cases hsame : self' = self
    · subst hsame
      rw [hself key' hk]
      have hheld := h.hand_own self'
      rw [hhand] at hheld
      rcases hheld with ⟨reg, hin, _, hb, _⟩
      exact ⟨reg, List.mem_append_left _ hin, hb⟩
    · rw [hother self' hsame] at hk
      rcases h.hint_own self' key' hk with ⟨reg, hin, hb⟩
      exact ⟨reg, List.mem_append_left _ hin, hb⟩
  · intro self'
    rw [inHand_snoc]
    by_cases hsame : self = self'
    · simp only [handStep, if_pos hsame]
      exact True.intro
    · simp only [handStep, if_neg hsame]
      apply (h.hand_own self').stable
      · exact fun _ => List.mem_append_left _
      · intro key' _ self₁ reg hin
        simpa using hin
      · exact fun key' _ _ => hbundle key'
      · intro key' hk
        rwa [← hother self' (Ne.symm hsame)]

theorem KeysOwned.release (h : KeysOwned lib s past) {reg : Registration Regs Rdma}
    (hreg : Event.registered self key reg ∈ past)
    (hid : s'.idGen = s.idGen)
    (hhint : forall self' key', s'.hintOf self' = some key' ->
      s.hintOf self' = some key' ∧ key' ≠ key)
    (hbundle : forall key', s'.bundle key' = if key' = key then none else s.bundle key') :
    KeysOwned lib s' (past ++ [.unregistered self key]) := by
  apply h.change (by simp) (by simp) hid
  · intro key' b hb
    rw [hbundle] at hb
    by_cases hkey : key' = key
    · rw [if_pos hkey] at hb
      cases hb
    · rwa [if_neg hkey] at hb
  · intro self' key' hk
    rcases hhint self' key' hk with ⟨hk, hkey⟩
    rcases h.hint_own self' key' hk with ⟨reg, hin, hb⟩
    rw [hbundle, if_neg hkey]
    exact ⟨reg, List.mem_append_left _ hin, hb⟩
  · intro self'
    rw [inHand_snoc]
    by_cases hsame : self = self'
    · simp only [handStep, if_pos hsame]
      exact True.intro
    · simp only [handStep, if_neg hsame]
      apply (h.hand_own self').stable
      · exact fun _ => List.mem_append_left _
      · intro key' _ self₁ reg hin
        simpa using hin
      · intro key' reg' hin
        have hkey : key' ≠ key := by
          rintro rfl
          exact hsame (h.registered_unique self' self key' reg' reg hin hreg).1
        rw [hbundle, if_neg hkey]
      · exact fun key' hk => (hhint self' key' hk).1

end Steps
end Kernel
end Dmerge
