import Mathlib.Data.List.Nodup
import Mathlib.Logic.Function.Basic

/-!
Members that point to their owner and owners that keep a list of their members. Both directions
are written by every operation, and they agree afterwards if they agreed before.
-/

namespace CrossLinks

@[ext]
structure Links (Member Owner : Type) where
  ownerOf : Member → Option Owner
  members : Owner → List Member

variable {Member Owner : Type}

structure Consistent (links : Links Member Owner) : Prop where
  agrees : ∀ member owner, links.ownerOf member = some owner ↔ member ∈ links.members owner
  nodup : ∀ owner, (links.members owner).Nodup

namespace Links

def empty : Links Member Owner where
  ownerOf _ := none
  members _ := []

theorem empty_consistent : Consistent (empty : Links Member Owner) where
  agrees _ _ := by simp [empty]
  nodup _ := List.nodup_nil

variable {links : Links Member Owner}

theorem not_mem_of_free (consistent : Consistent links) {member : Member}
    (free : links.ownerOf member = none) (owner : Owner) : member ∉ links.members owner := by
  intro listed
  have points := (consistent.agrees member owner).mpr listed
  rw [free] at points
  cases points

section Operations

variable [DecidableEq Member]

def detach (links : Links Member Owner) (member : Member) : Links Member Owner where
  ownerOf := Function.update links.ownerOf member none
  members owner := (links.members owner).erase member

theorem detach_consistent (consistent : Consistent links) (member : Member) :
    Consistent (links.detach member) where
  agrees := by
    intro other place
    simp only [detach, (consistent.nodup place).mem_erase_iff]
    by_cases same : other = member
    · subst same
      simp
    · simp [same, consistent.agrees]
  nodup place := (consistent.nodup place).erase member

variable [DecidableEq Owner]

def attach (links : Links Member Owner) (member : Member) (owner : Owner) : Links Member Owner where
  ownerOf := Function.update links.ownerOf member (some owner)
  members := Function.update links.members owner (member :: links.members owner)

def dissolve (links : Links Member Owner) (owner : Owner) : Links Member Owner where
  ownerOf member := if member ∈ links.members owner then none else links.ownerOf member
  members := Function.update links.members owner []

theorem attach_consistent (consistent : Consistent links) {member : Member}
    (free : links.ownerOf member = none) (owner : Owner) :
    Consistent (links.attach member owner) where
  agrees := by
    intro other place
    have unlisted := not_mem_of_free consistent free place
    by_cases same : other = member
    · subst same
      by_cases here : place = owner
      · subst here
        simp [attach]
      · simp [attach, Function.update_of_ne here, unlisted, Ne.symm here]
    · by_cases here : place = owner
      · subst here
        simp [attach, same, consistent.agrees]
      · simp [attach, Function.update_of_ne same, Function.update_of_ne here, consistent.agrees]
  nodup := by
    intro place
    by_cases here : place = owner
    · subst here
      simp only [attach, Function.update_self]
      exact List.nodup_cons.mpr ⟨not_mem_of_free consistent free place, consistent.nodup place⟩
    · simp only [attach, Function.update_of_ne here]
      exact consistent.nodup place

theorem dissolve_consistent (consistent : Consistent links) (owner : Owner) :
    Consistent (links.dissolve owner) where
  agrees := by
    intro other place
    by_cases here : place = owner
    · subst here
      by_cases listed : other ∈ links.members place
      · simp [dissolve, listed]
      · simp [dissolve, listed, consistent.agrees]
    · simp only [dissolve, Function.update_of_ne here]
      by_cases listed : other ∈ links.members owner
      · have elsewhere : other ∉ links.members place := by
          intro second
          have first := (consistent.agrees other owner).mpr listed
          have points := (consistent.agrees other place).mpr second
          rw [first] at points
          exact here (Option.some.inj points).symm
        simp [listed, elsewhere]
      · simp [listed, consistent.agrees]
  nodup := by
    intro place
    by_cases here : place = owner
    · subst here
      simp [dissolve]
    · simp only [dissolve, Function.update_of_ne here]
      exact consistent.nodup place

end Operations

end Links

end CrossLinks
