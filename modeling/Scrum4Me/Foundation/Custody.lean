import Mathlib.Data.List.Nodup
import Mathlib.Data.List.Perm.Basic
import Mathlib.Data.List.Perm.Lattice
import Mathlib.Logic.Function.Basic
import Mathlib.Logic.Relation
import Mathlib.Order.Basic

/-!
# Custody of exclusive locks

A table says which holder has each lock; the holders keep grips, by which the
locks are given back. The two agree: every grip is on a lock of its holder, every
lock that is taken has a grip, and no lock has two. Holders that take their locks
in ascending order never wait for each other in a cycle.
-/

namespace Scrum4Me
namespace Foundation

variable {κ : Type u} {η : Type v}

/-- What a holder keeps of a lock it has taken. -/
structure Grip (κ : Type u) (η : Type v) where
  path : κ
  holder : η
  deriving DecidableEq

section Table

variable [DecidableEq κ]

/-- The lock is taken. -/
def takeLock (locks : κ → Option η) (path : κ) (holder : η) : κ → Option η :=
  Function.update locks path (some holder)

/-- The lock is free again. -/
def freeLock (locks : κ → Option η) (path : κ) : κ → Option η :=
  Function.update locks path none

@[simp] theorem takeLock_same (locks : κ → Option η) (path : κ) (holder : η) :
    takeLock locks path holder path = some holder := Function.update_self ..

theorem takeLock_apart {locks : κ → Option η} {path other : κ} {holder : η} (apart : other ≠ path) :
    takeLock locks path holder other = locks other := Function.update_of_ne apart ..

@[simp] theorem freeLock_same (locks : κ → Option η) (path : κ) :
    freeLock locks path path = none := Function.update_self ..

theorem freeLock_apart {locks : κ → Option η} {path other : κ} (apart : other ≠ path) :
    freeLock locks path other = locks other := Function.update_of_ne apart ..

end Table

/-- The locks of the holders that are kept. -/
def keepLocks (locks : κ → Option η) (keep : η → Bool) : κ → Option η :=
  fun path => (locks path).filter keep

theorem keepLocks_eq_some {locks : κ → Option η} {keep : η → Bool} {path : κ} {holder : η} :
    keepLocks locks keep path = some holder ↔ locks path = some holder ∧ keep holder = true := by
  simp [keepLocks, Option.filter_eq_some_iff]

/-- The table of locks and the grips on them agree. -/
structure Custody
    (locks : κ → Option η)
    (grips : List (Grip κ η)) : Prop where
  once : (grips.map Grip.path).Nodup
  held : ∀ grip ∈ grips, locks grip.path = some grip.holder
  kept : ∀ path holder, locks path = some holder → ⟨path, holder⟩ ∈ grips

namespace Custody

variable {locks : κ → Option η} {grips : List (Grip κ η)}

theorem start : Custody (fun _ : κ => (none : Option η)) [] where
  once := List.nodup_nil
  held _ member := absurd member List.not_mem_nil
  kept _ _ taken := absurd taken (by simp)

/-- Two grips on one lock are one grip. -/
theorem unique (custody : Custody locks grips) {first second : Grip κ η}
    (memberFirst : first ∈ grips) (memberSecond : second ∈ grips)
    (same : first.path = second.path) :
    first.holder = second.holder := by
  have heldFirst := custody.held first memberFirst
  have heldSecond := custody.held second memberSecond
  rw [same, heldSecond] at heldFirst
  exact (Option.some.inj heldFirst).symm

/-- Grips change hands. -/
theorem perm (custody : Custody locks grips) {others : List (Grip κ η)}
    (moved : grips.Perm others) :
    Custody locks others where
  once := (moved.map Grip.path).nodup_iff.mp custody.once
  held grip member := custody.held grip (moved.mem_iff.mpr member)
  kept path holder taken := moved.mem_iff.mp (custody.kept path holder taken)

theorem take [DecidableEq κ]
    (custody : Custody locks grips) {path : κ} (free : locks path = none) (holder : η) :
    Custody (takeLock locks path holder) (⟨path, holder⟩ :: grips) where
  once := by
    rw [List.map_cons, List.nodup_cons]
    refine ⟨?_, custody.once⟩
    intro member
    obtain ⟨grip, memberGrip, rfl⟩ := List.mem_map.mp member
    rw [custody.held grip memberGrip] at free
    cases free
  held grip member := by
    rcases List.mem_cons.mp member with rfl | member
    · exact takeLock_same ..
    · have held := custody.held grip member
      have apart : grip.path ≠ path := by
        rintro rfl
        rw [free] at held
        cases held
      rw [takeLock_apart apart, held]
  kept other owner taken := by
    by_cases same : other = path
    · subst same
      rw [takeLock_same] at taken
      cases taken
      exact List.mem_cons_self
    · rw [takeLock_apart same] at taken
      exact List.mem_cons_of_mem _ (custody.kept other owner taken)

theorem free [DecidableEq κ] {grip : Grip κ η} (custody : Custody locks (grip :: grips)) :
    Custody (freeLock locks grip.path) grips where
  once := (List.nodup_cons.mp custody.once).2
  held other member := by
    have apart : other.path ≠ grip.path := by
      intro same
      exact (List.nodup_cons.mp custody.once).1 (same ▸ List.mem_map_of_mem member)
    rw [freeLock_apart apart]
    exact custody.held other (List.mem_cons_of_mem _ member)
  kept path holder taken := by
    have apart : path ≠ grip.path := by
      rintro rfl
      rw [freeLock_same] at taken
      cases taken
    rw [freeLock_apart apart] at taken
    rcases List.mem_cons.mp (custody.kept path holder taken) with same | member
    · exact absurd (congrArg Grip.path same) apart
    · exact member

/-- The locks of some holders are freed and their grips forgotten. -/
theorem filter (custody : Custody locks grips) (keep : η → Bool) :
    Custody (keepLocks locks keep) (grips.filter fun grip => keep grip.holder) where
  once := custody.once.sublist (List.filter_sublist.map Grip.path)
  held grip member := by
    obtain ⟨member, kept⟩ := List.mem_filter.mp member
    exact keepLocks_eq_some.mpr ⟨custody.held grip member, kept⟩
  kept path holder taken := by
    obtain ⟨taken, kept⟩ := keepLocks_eq_some.mp taken
    exact List.mem_filter.mpr ⟨custody.kept path holder taken, kept⟩

end Custody

/-- What is dropped with its owner may as well be dropped by itself. -/
theorem filter_flatMap_of_agree
    {owners : List α} {parts : α → List β} {keep : α → Bool} {keepPart : β → Bool}
    (agree : ∀ owner ∈ owners, ∀ part ∈ parts owner, keepPart part = keep owner) :
    (owners.flatMap parts).filter keepPart = (owners.filter keep).flatMap parts := by
  induction owners with
  | nil => rfl
  | cons owner rest ih =>
    have here := agree owner List.mem_cons_self
    rw [List.flatMap_cons, List.filter_append, ih
      fun other member => agree other (List.mem_cons_of_mem _ member)]
    cases kept : keep owner with
    | true =>
      rw [List.filter_cons_of_pos kept, List.flatMap_cons,
        List.filter_eq_self.mpr fun part member => (here part member).trans kept]
    | false =>
      have none : (parts owner).filter keepPart = [] :=
        List.filter_eq_nil_iff.mpr fun part member => by
          rw [here part member, kept]
          exact Bool.false_ne_true
      rw [List.filter_cons_of_neg (by rw [kept]; exact Bool.false_ne_true), none, List.nil_append]

/-! ## Waiting in ascending order -/

/-- A relation of which each step rises, towards those that want something at
all, has no cycle. -/
theorem acyclic_of_ascending {ω : Type w} [Preorder κ] {waits : ω → ω → Prop} {wants : ω → κ → Prop}
    (wanting : ∀ first second, waits first second → ∃ path, wants first path)
    (ascending : ∀ first second path other, waits first second →
      wants first path → wants second other → path < other) (holder : ω) :
    ¬ Relation.TransGen waits holder holder := by
  have rises : ∀ second, Relation.TransGen waits holder second →
      ∀ path other, wants holder path → wants second other → path < other := by
    intro second reached
    induction reached with
    | single step => exact fun path other => ascending _ _ path other step
    | tail _ step ih =>
      intro path other wantsFirst wantsLast
      obtain ⟨middle, wantsMiddle⟩ := wanting _ _ step
      exact (ih path middle wantsFirst wantsMiddle).trans
        (ascending _ _ middle other step wantsMiddle wantsLast)
  intro cycle
  obtain ⟨second, step, -⟩ := Relation.TransGen.head'_iff.mp cycle
  obtain ⟨path, wantsPath⟩ := wanting _ _ step
  exact lt_irrefl path (rises holder cycle path path wantsPath wantsPath)

end Foundation
end Scrum4Me
