namespace VirtualFs

/-- A table with text keys. Its entries stand in the order of their keys, each key once, so two
    tables with the same content are equal and everything written from a table has one order. -/
structure Dict (α : Type) where
  entries : List (String × α)
  ordered : entries.Pairwise (fun a b => a.1 < b.1)

namespace Dict

variable {α : Type}

def empty : Dict α := ⟨[], .nil⟩

/-- Put an entry in its place. An older entry with the same key gives way. -/
def place (key : String) (value : α) : List (String × α) → List (String × α)
  | [] => [(key, value)]
  | (other, old) :: rest =>
    if key = other then (key, value) :: rest
    else if key < other then (key, value) :: (other, old) :: rest
    else (other, old) :: place key value rest

theorem fst_of_mem_place {key : String} {value : α} {entries : List (String × α)}
    {entry : String × α} (hmem : entry ∈ place key value entries) :
    entry.1 = key ∨ entry ∈ entries := by
  induction entries with
  | nil => simp_all [place]
  | cons head rest ih =>
    simp only [place] at hmem
    split at hmem
    · simp only [List.mem_cons] at hmem ⊢
      rcases hmem with rfl | hmem
      · exact .inl rfl
      · exact .inr (.inr hmem)
    · split at hmem
      · simp only [List.mem_cons] at hmem ⊢
        rcases hmem with rfl | hmem
        · exact .inl rfl
        · exact .inr hmem
      · simp only [List.mem_cons] at hmem ⊢
        rcases hmem with rfl | hmem
        · exact .inr (.inl rfl)
        · exact (ih hmem).imp id .inr

theorem ordered_place (key : String) (value : α) {entries : List (String × α)}
    (hordered : entries.Pairwise (fun a b => a.1 < b.1)) :
    (place key value entries).Pairwise (fun a b => a.1 < b.1) := by
  induction entries with
  | nil => simp [place]
  | cons head rest ih =>
    obtain ⟨hhead, hrest⟩ := List.pairwise_cons.1 hordered
    simp only [place]
    split
    · rename_i heq
      exact List.pairwise_cons.2 ⟨fun entry hentry => heq ▸ hhead entry hentry, hrest⟩
    · split
      · rename_i hlt
        refine List.pairwise_cons.2 ⟨fun entry hentry => ?_, hordered⟩
        rcases List.mem_cons.1 hentry with rfl | hentry
        · exact hlt
        · exact String.lt_trans hlt (hhead entry hentry)
      · rename_i hne hnot
        refine List.pairwise_cons.2 ⟨fun entry hentry => ?_, ih hrest⟩
        rcases fst_of_mem_place hentry with hkey | hentry
        · rw [hkey]
          exact Decidable.byContradiction fun h =>
            hne (String.le_antisymm (String.not_lt.1 h) (String.not_lt.1 hnot))
        · exact hhead entry hentry

def insert (table : Dict α) (key : String) (value : α) : Dict α :=
  ⟨place key value table.entries, ordered_place key value table.ordered⟩

/-- The table of a list of entries. Of several with one key the last counts. -/
def ofList (entries : List (String × α)) : Dict α :=
  entries.foldl (fun table entry => table.insert entry.1 entry.2) empty

end Dict

end VirtualFs
