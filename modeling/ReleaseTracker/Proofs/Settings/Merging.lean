import Mathlib.Tactic.Common
import ReleaseTracker.Settings.Layer

/-! What stands under a key once a value has been laid over others. A table that is laid over others
changes what is under its own keys (`under?_lay`), and a value at a place changes what is under the
first key of the place (`entries_update_key`). -/

namespace ReleaseTracker
namespace Toml
variable {α : Type}

theorem under?_cons (key : String) (entry : String × α) (rest : List (String × α)) :
    under? key (entry :: rest) = if entry.1 = key then some entry.2 else under? key rest := by
  unfold under?
  rw [List.find?_cons]
  by_cases hkey : entry.1 = key
  · simp [hkey]
  · simp [hkey]

theorem under?_putEntry (key other : String) (a : α) (entries : List (String × α)) :
    under? other (putEntry key a entries) =
      if key = other then some a else under? other entries := by
  induction entries with
  | nil =>
    rw [putEntry, under?_cons]
  | cons entry rest ih =>
    obtain ⟨first, b⟩ := entry
    rw [putEntry]
    split_ifs with hfirst hother hother
    · rw [under?_cons, if_pos hother]
    · rw [under?_cons, if_neg hother, under?_cons, if_neg (hfirst ▸ hother)]
    · rw [under?_cons, if_neg (hother ▸ hfirst), ih, if_pos hother]
    · rw [under?_cons, under?_cons, ih, if_neg hother]

end Toml

namespace Settings
open Toml

/-- What is said of a value: that it is taken away, or what is laid over it, and where below it. -/
abbrev Word := Option (Place × Given)

def hear (old : Option Given) : Word → Option Given
  | none => none
  | some (place, v) => some ((old.getD .gap).update (·.lay v) place)

def hearAll (old : Option Given) (words : List Word) : Option Given := words.foldl hear old

@[simp] theorem hearAll_nil (old : Option Given) : hearAll old [] = old := rfl

theorem hearAll_append (old : Option Given) (words more : List Word) :
    hearAll old (words ++ more) = hearAll (hearAll old words) more := List.foldl_append

namespace Given

@[simp] theorem entries_table (origin : Option Origin) (entries : List (String × Given)) :
    (table origin entries).entries = entries := rfl

theorem entries_ground (old : Given) : old.ground.entries = old.entries := by
  cases old <;> rfl

theorem lay_of_isTable_eq_false {old v : Given} (h : v.isTable = false) : old.lay v = v := by
  cases v with
  | table => cases h
  | _ => rfl

theorem under?_layEntries (key : String) (below : Given) (entries : List (String × Given)) :
    under? key (layEntries below entries).entries = hearAll (under? key below.entries)
      ((entries.filter (·.1 = key)).map fun entry => some ([], entry.2)) := by
  induction entries generalizing below with
  | nil => rfl
  | cons entry rest ih =>
    obtain ⟨name, v⟩ := entry
    rw [layEntries, ih, entries_table, under?_putEntry]
    by_cases hname : name = key
    · subst hname
      rw [if_pos rfl, List.filter_cons_of_pos (by simp), List.map_cons]
      rfl
    · rw [if_neg hname, List.filter_cons_of_neg (by simpa using hname)]

def wordsOn (key : String) : Given → List Word
  | .table _ entries => (entries.filter (·.1 = key)).map fun entry => some ([], entry.2)
  | _ => [none]

theorem under?_lay (key : String) (old v : Given) :
    under? key (old.lay v).entries = hearAll (under? key old.entries) (v.wordsOn key) := by
  cases v with
  | table origin entries =>
    rw [lay, under?_layEntries, entries_ground]
    rfl
  | _ => rfl

theorem entries_update_key (change : Given → Given) (name : String) (place : Place) (old : Given) :
    (old.update change (.key name :: place)).entries =
      putEntry name (((under? name old.entries).getD .gap).update change place) old.entries := rfl

end Given
end Settings
end ReleaseTracker
