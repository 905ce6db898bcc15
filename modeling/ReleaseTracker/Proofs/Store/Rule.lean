import Mathlib.Order.Basic
import ReleaseTracker.Proofs.Store.Tables

/-! How a store may treat a call: a reliable one performs it, and a fallible one may also fail. What
a fallible store answers without an error, a reliable one may answer (`fallible_ok_iff`). -/

namespace ReleaseTracker

abbrev StoreRule := Tables → (call : StoreCall) → Except StoreError call.Result → Tables → Prop

namespace StoreRule
variable {t t' : Tables}

def reliable : StoreRule := fun t call answer t' => ∃ now, t.perform now call = (answer, t')

/-- A call is performed, or fails without an effect. Only a refreshed repository may be there
although it could not be read back. -/
def fallible : StoreRule := fun t call answer t' =>
  reliable t call answer t' ∨
    ∃ e, answer = .error e ∧
      (t' = t ∨
        ∃ id draft, call = .upsertRepo draft ∧ draft.id = .set id ∧ t' = t.upsertRepo id draft)

theorem reliable_le_fallible : reliable ≤ fallible := fun _ _ _ _ h => .inl h

@[simp] theorem fallible_ok_iff {call : StoreCall} {result : call.Result} :
    fallible t call (.ok result) t' ↔ reliable t call (.ok result) t' := by
  simp [fallible]

theorem eq_of_fallible_error {call : StoreCall} {e : StoreError}
    (h : fallible t call (.error e) t') (hcall : ∀ draft, call ≠ .upsertRepo draft) : t' = t := by
  rcases h with ⟨now, hperform⟩ | ⟨_, -, rfl | ⟨_, draft, hdraft, -⟩⟩
  · exact Tables.perform_error hperform
  · rfl
  · exact absurd hdraft (hcall draft)

theorem fallible_upsertRepo_error {draft : RepoDraft} {id : Int} (hid : draft.id = .set id)
    {e : StoreError} (h : fallible t (.upsertRepo draft) (.error e) t') :
    t' = t ∨ t' = t.upsertRepo id draft := by
  rcases h with ⟨now, hperform⟩ | ⟨_, -, rfl | ⟨other, _, hcall, hother, rfl⟩⟩
  · exact .inl (Tables.perform_error hperform)
  · exact .inl rfl
  · cases hcall
    cases hid.symm.trans hother
    exact .inr rfl

theorem reliable_iff_of_perform {call : StoreCall} {answer : Except StoreError call.Result}
    {result : Except StoreError call.Result} {after : Tables}
    (h : ∀ now, t.perform now call = (result, after)) :
    reliable t call answer t' ↔ answer = result ∧ t' = after := by
  constructor
  · rintro ⟨now, hnow⟩
    obtain ⟨rfl, rfl⟩ := Prod.mk.inj ((h now).symm.trans hnow)
    exact ⟨rfl, rfl⟩
  · rintro ⟨rfl, rfl⟩
    exact ⟨⟨0, 0⟩, h _⟩

/-! What a reliable store answers, call by call -/

@[simp] theorem reliable_findUser_iff {id : Int} {answer : Except StoreError (Option User)} :
    reliable t (.findUser id) answer t' ↔ answer = .ok (t.user? id) ∧ t' = t :=
  reliable_iff_of_perform fun _ => rfl

@[simp] theorem reliable_findRepo_iff {id : Int} {answer : Except StoreError (Option Repo)} :
    reliable t (.findRepo id) answer t' ↔ answer = .ok (t.repo? id) ∧ t' = t :=
  reliable_iff_of_perform fun _ => rfl

@[simp] theorem reliable_findStars_iff {userId : Int} {answer : Except StoreError (List Int)} :
    reliable t (.findStars userId) answer t' ↔ answer = .ok (t.starsOf userId) ∧ t' = t :=
  reliable_iff_of_perform fun _ => rfl

@[simp] theorem reliable_findExistingVersion_iff {repoId : Int} {tagName : String}
    {answer : Except StoreError Bool} :
    reliable t (.findExistingVersion repoId tagName) answer t' ↔
      answer = .ok (t.hasVersion repoId tagName) ∧ t' = t :=
  reliable_iff_of_perform fun _ => rfl

@[simp] theorem reliable_markUserRemoved_iff {id : Int} {time : Instant}
    {answer : Except StoreError Unit} :
    reliable t (.markUserRemoved id time) answer t' ↔
      answer = .ok () ∧ t' = t.markUserRemoved id (.utc time) :=
  reliable_iff_of_perform fun _ => rfl

@[simp] theorem reliable_markRepoRemoved_iff {id : Int} {time : Instant}
    {answer : Except StoreError Unit} :
    reliable t (.markRepoRemoved id time) answer t' ↔
      answer = .ok () ∧ t' = t.markRepoRemoved id (.utc time) :=
  reliable_iff_of_perform fun _ => rfl

@[simp] theorem reliable_deleteStars_iff {repoIds : List Int} {userId : Int}
    {answer : Except StoreError Nat} :
    reliable t (.deleteStars repoIds userId) answer t' ↔
      answer = .ok (t.countStars repoIds userId) ∧ t' = t.deleteStars repoIds userId :=
  reliable_iff_of_perform fun _ => rfl

theorem reliable_upsertRepo_iff {draft : RepoDraft} {id : Int} (hid : draft.id = .set id)
    {answer : Except StoreError Repo} :
    reliable t (.upsertRepo draft) answer t' ↔
      answer = .ok (Tables.refreshed id draft (t.repo? id)) ∧ t' = t.upsertRepo id draft :=
  reliable_iff_of_perform fun now => t.perform_upsertRepo now hid

theorem reliable_createVersions_iff {rows : List Version} {after : Tables}
    (h : t.insertVersions? rows = some after) {answer : Except StoreError Nat} :
    reliable t (.createVersions rows) answer t' ↔ answer = .ok rows.length ∧ t' = after :=
  reliable_iff_of_perform fun _ => by
    simp only [Tables.perform, Tables.kept, h]

theorem reliable_createVersions_iff_fits {rows : List Version} {answer : Except StoreError Nat} :
    reliable t (.createVersions rows) answer t' ↔
      (t.Fits rows ∧ answer = .ok rows.length ∧ t' = { t with versions := t.versions ++ rows }) ∨
        ¬ t.Fits rows ∧ answer = .error .brokenKey ∧ t' = t := by
  by_cases hfits : t.Fits rows
  · rw [reliable_createVersions_iff (Tables.insertVersions?_eq_some_iff.mpr ⟨hfits, rfl⟩)]
    simp [hfits]
  · have hnone : t.insertVersions? rows = none :=
      Option.eq_none_iff_forall_ne_some.mpr fun after hafter =>
        hfits (Tables.insertVersions?_eq_some_iff.mp hafter).1
    have hbroken : reliable t (.createVersions rows) answer t' ↔
        answer = .error .brokenKey ∧ t' = t :=
      reliable_iff_of_perform fun _ => by
        simp only [Tables.perform, Tables.kept, hnone]
    rw [hbroken]
    simp [hfits]

theorem reliable_createStar_iff {userId repoId : Int} {answer : Except StoreError Unit} :
    reliable t (.createStar userId repoId) answer t' ↔ ∃ now,
      (answer = .ok () ∧ t.ensureStar? ⟨userId, repoId, .utc now⟩ = some t') ∨
        (answer = .error .brokenKey ∧ t.ensureStar? ⟨userId, repoId, .utc now⟩ = none ∧
          t' = t) := by
  refine exists_congr fun now => ?_
  have hperform : t.perform now (.createStar userId repoId) =
      t.kept () (t.ensureStar? ⟨userId, repoId, .utc now⟩) := rfl
  rw [hperform]
  cases t.ensureStar? ⟨userId, repoId, .utc now⟩ with
  | none => simp [Tables.kept, eq_comm]
  | some after => simp [Tables.kept, eq_comm]

/-! What a fallible store leaves -/

theorem performed_of_fallible {call : StoreCall} {answer : Except StoreError call.Result}
    (h : fallible t call answer t') : t' = t ∨ ∃ value, reliable t call (.ok value) t' := by
  rcases h with h | ⟨_, -, rfl | ⟨id, draft, rfl, hid, rfl⟩⟩
  · cases answer with
    | error e =>
      obtain ⟨now, hperform⟩ := h
      exact .inl (Tables.perform_error hperform)
    | ok value => exact .inr ⟨value, h⟩
  · exact .inl rfl
  · exact .inr ⟨_, (reliable_upsertRepo_iff hid).mpr ⟨rfl, rfl⟩⟩

theorem eq_of_not_isWrite {call : StoreCall} {answer : Except StoreError call.Result}
    (hcall : call.isWrite = false) (h : fallible t call answer t') : t' = t := by
  have hnone (now : Instant) : (t.perform now call).2 = t := by
    cases call <;> first | rfl | cases hcall
  rcases performed_of_fallible h with rfl | ⟨value, now, hperform⟩
  · rfl
  · rw [← hnone now, hperform]

end StoreRule
end ReleaseTracker
