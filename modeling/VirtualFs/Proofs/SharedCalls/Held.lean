import Mathlib.Data.List.Perm.Basic
import Mathlib.Data.Multiset.AddSub
import Mathlib.Data.Multiset.Count
import VirtualFs.SharedCalls

namespace VirtualFs.SharedCalls

variable {κ ω ν β : Type}

/-- The tickets that some parties hold, of whom each holds one at most. -/
def heldBy (ticket? : β → Option Ticket) (parties : List β) : Multiset Ticket :=
  (parties.filterMap ticket? : List Ticket)

variable {ticket? : β → Option Ticket} {parties : List β}

theorem mem_heldBy {ticket : Ticket} :
    ticket ∈ heldBy ticket? parties ↔ ∃ party ∈ parties, ticket? party = some ticket := by
  simp [heldBy]

theorem heldBy_cons {party : β} :
    heldBy ticket? (party :: parties) =
      ((ticket? party).toList : Multiset Ticket) + heldBy ticket? parties := by
  cases hticket : ticket? party <;> simp [heldBy, hticket]

theorem heldBy_eq_add_eraseIdx {index : Nat} {party : β} (hparty : parties[index]? = some party) :
    heldBy ticket? parties =
      ((ticket? party).toList : Multiset Ticket) + heldBy ticket? (parties.eraseIdx index) := by
  obtain ⟨hindex, rfl⟩ := List.getElem?_eq_some_iff.1 hparty
  rw [← heldBy_cons]
  exact Quot.sound ((List.getElem_cons_eraseIdx_perm hindex).filterMap ticket?).symm

variable (ticket?) in
/-- What one party does with its ticket leaves the tickets of the others as they are. -/
theorem exists_heldBy_others {index : Nat} {party : β} (hparty : parties[index]? = some party) :
    ∃ others : Multiset Ticket,
      heldBy ticket? parties = (ticket? party).toList + others ∧
      ∀ party', heldBy ticket? (parties.set index party') = (ticket? party').toList + others := by
  refine ⟨_, heldBy_eq_add_eraseIdx hparty, fun party' => ?_⟩
  have hindex := (List.getElem?_eq_some_iff.1 hparty).1
  rw [← heldBy_cons]
  exact Quot.sound ((List.set_perm_cons_eraseIdx hindex party').filterMap ticket?)

/-- A ticket that is there once only is held by one party only. -/
theorem index_eq_of_count_le_one {ticket : Ticket} {index index' : Nat} {party party' : β}
    (hsingle : (heldBy ticket? parties).count ticket ≤ 1)
    (hparty : parties[index]? = some party) (hheld : ticket? party = some ticket)
    (hparty' : parties[index']? = some party') (hheld' : ticket? party' = some ticket) :
    index' = index := by
  by_contra hne
  have hother : ticket ∈ heldBy ticket? (parties.eraseIdx index) :=
    mem_heldBy.2 ⟨party', List.mem_eraseIdx_iff_getElem?.2 ⟨index', hne, hparty'⟩, hheld'⟩
  rw [heldBy_eq_add_eraseIdx hparty, hheld] at hsingle
  simp at hsingle
  exact hsingle hother

theorem heldBy_append {parties' : List β} :
    heldBy ticket? (parties ++ parties') = heldBy ticket? parties + heldBy ticket? parties' := by
  simp [heldBy]

end VirtualFs.SharedCalls
