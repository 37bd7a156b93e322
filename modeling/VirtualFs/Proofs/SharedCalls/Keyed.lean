import Mathlib.Data.List.Basic
import VirtualFs.Proofs.SharedCalls.View

namespace VirtualFs

variable {κ β γ : Type} [DecidableEq κ] {key : κ} {keys : List κ} {things : List β} {index : Nat}

/-- Of some things, of which each belongs to a key, those that belong to one key. -/
def ofKey (key : κ) : List κ → List β → List β
  | own :: keys, thing :: things =>
    if own = key then thing :: ofKey key keys things else ofKey key keys things
  | _, _ => []

/-- The place of a thing among those of one key. -/
def rank (key : κ) (keys : List κ) (index : Nat) : Nat :=
  (keys.take index).count key

theorem rank_cons_succ (own : κ) :
    rank key (own :: keys) (index + 1) =
      if own = key then rank key keys index + 1 else rank key keys index := by
  rw [rank, List.take_succ_cons, List.count_cons, rank]
  simp only [beq_iff_eq]
  split <;> rfl

theorem rank_append (hindex : index ≤ keys.length) (more : List κ) :
    rank key (keys ++ more) index = rank key keys index := by
  rw [rank, rank, List.take_append_of_le_length hindex]

theorem getElem?_ofKey (hkey : keys[index]? = some key) (hlength : keys.length = things.length) :
    (ofKey key keys things)[rank key keys index]? = things[index]? := by
  induction keys generalizing things index with
  | nil => simp at hkey
  | cons own keys ih =>
    cases things with
    | nil => simp at hlength
    | cons thing things =>
      cases index with
      | zero =>
        obtain rfl : own = key := by simpa using hkey
        simp [ofKey, rank]
      | succ index =>
        have hkey' : keys[index]? = some key := by simpa using hkey
        have hrest := ih hkey' (Nat.succ.inj hlength)
        rw [rank_cons_succ, ofKey]
        split <;> simpa using hrest

theorem ofKey_set (hkey : keys[index]? = some key) (thing : β) :
    ofKey key keys (things.set index thing) =
      (ofKey key keys things).set (rank key keys index) thing := by
  induction keys generalizing things index with
  | nil => simp at hkey
  | cons own keys ih =>
    cases things with
    | nil => rfl
    | cons first things =>
      cases index with
      | zero =>
        obtain rfl : own = key := by simpa using hkey
        simp [ofKey, rank]
      | succ index =>
        have hkey' : keys[index]? = some key := by simpa using hkey
        rw [rank_cons_succ, List.set_cons_succ, ofKey, ofKey, ih hkey']
        split <;> rfl

/-- What becomes of something under another key does not show. -/
theorem ofKey_set_of_ne (hkey : keys[index]? ≠ some key) (thing : β) :
    ofKey key keys (things.set index thing) = ofKey key keys things := by
  induction keys generalizing things index with
  | nil => rfl
  | cons own keys ih =>
    cases things with
    | nil => rfl
    | cons first things =>
      cases index with
      | zero =>
        have hother : own ≠ key := by simpa using hkey
        simp [ofKey, hother]
      | succ index =>
        have hkey' : keys[index]? ≠ some key := by simpa using hkey
        rw [List.set_cons_succ, ofKey, ofKey, ih hkey']

theorem ofKey_append_singleton (hlength : keys.length = things.length) (own : κ) (thing : β) :
    ofKey key (keys ++ [own]) (things ++ [thing]) =
      ofKey key keys things ++ if own = key then [thing] else [] := by
  induction keys generalizing things with
  | nil =>
    obtain rfl : things = [] := by simpa using hlength.symm
    rfl
  | cons first keys ih =>
    cases things with
    | nil => simp at hlength
    | cons other things =>
      have hrest := ih (Nat.succ.inj hlength)
      simp only [List.cons_append, ofKey, hrest]
      split <;> rfl

theorem length_ofKey (hlength : keys.length = things.length) :
    (ofKey key keys things).length = keys.count key := by
  induction keys generalizing things with
  | nil => rfl
  | cons own keys ih =>
    cases things with
    | nil => simp at hlength
    | cons thing things =>
      have hrest := ih (Nat.succ.inj hlength)
      rw [ofKey, List.count_cons]
      split <;> simp_all

theorem exists_of_getElem?_ofKey {thing : β} {place : Nat}
    (hthing : (ofKey key keys things)[place]? = some thing) :
    ∃ index : Nat, keys[index]? = some key ∧ things[index]? = some thing ∧
      rank key keys index = place := by
  induction keys generalizing things place with
  | nil => simp [ofKey] at hthing
  | cons own keys ih =>
    cases things with
    | nil => simp [ofKey] at hthing
    | cons first things =>
      rw [ofKey] at hthing
      split at hthing
      case isTrue hown =>
        cases place with
        | zero => exact ⟨0, by simp [hown], by simpa using hthing, rfl⟩
        | succ place =>
          rw [List.getElem?_cons_succ] at hthing
          obtain ⟨index, hkey, hindex, hrank⟩ := ih hthing
          exact ⟨index + 1, by simpa using hkey, by simpa using hindex,
            by rw [rank_cons_succ, if_pos hown, hrank]⟩
      case isFalse hown =>
        obtain ⟨index, hkey, hindex, hrank⟩ := ih hthing
        exact ⟨index + 1, by simpa using hkey, by simpa using hindex,
          by rw [rank_cons_succ, if_neg hown, hrank]⟩

theorem ofKey_map_self (own : β → κ) (things : List β) :
    ofKey key (things.map own) things = things.filter (fun thing => own thing = key) := by
  induction things with
  | nil => rfl
  | cons thing things ih =>
    rw [List.map_cons, ofKey, List.filter_cons, ih]
    simp

end VirtualFs
