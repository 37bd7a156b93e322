import VirtualFs.Path

namespace VirtualFs

/-- A place in a backend: the names that lead to it from the root, outermost first. -/
abbrev Place : Type := List String

theorem Segment.text_injective : Function.Injective Segment.text := by
  rintro ⟨text, usable⟩ ⟨text', usable'⟩ htext
  obtain rfl : text = text' := htext
  rfl

namespace Path

/-- The place that a path means where every name is shown as it is. -/
def place : Path → Place
  | root => []
  | child dir name => dir.place ++ [name.text]

theorem place_injective : Function.Injective place := by
  intro path other hplace
  induction path generalizing other with
  | root =>
    cases other with
    | root => rfl
    | child => simp [place] at hplace
  | child dir name ih =>
    cases other with
    | root => simp [place] at hplace
    | child other name' =>
      obtain ⟨hdir, hname⟩ := List.append_inj' hplace rfl
      have htext : name.text = name'.text := by simpa using hname
      rw [ih hdir, Segment.text_injective htext]

/-- The steps of a path lead to it from the root. -/
theorem foldl_child_segments (path : Path) : path.segments.foldl child root = path := by
  induction path with
  | root => rfl
  | child dir name ih => rw [segments, List.foldl_append, ih, List.foldl_cons, List.foldl_nil]

/-- A piece in front of a separator has been followed before what is behind it. -/
theorem ofString_append (front back : String) :
    ofString (front ++ "/" ++ back) =
      (back.toList.splitOn '/').foldl (fun path piece => path.enter (String.ofList piece))
        (ofString front) := by
  have hlist : (front ++ "/" ++ back).toList = front.toList ++ '/' :: back.toList := by simp
  rw [ofString, hlist, List.splitOn_append_cons_self, List.foldl_append]
  rfl

theorem ofString_append_piece (front : String) {piece : String} (hpiece : '/' ∉ piece.toList) :
    ofString (front ++ "/" ++ piece) = (ofString front).enter piece := by
  rw [ofString_append, List.splitOn_eq_singleton hpiece]
  simp

/-- A name behind a spelling leads one step down from where the spelling leads. -/
theorem ofString_append_segment (front : String) (name : Segment) :
    ofString (front ++ "/" ++ name.text) = (ofString front).child name := by
  rw [ofString_append_piece front name.usable.2.2.2, enter, dif_pos name.usable]

/-- Steps that follow a spelling go on from where it leads. -/
theorem place_ofString_append_steps (front : String) (path : Path) :
    (ofString (front ++ path.steps)).place = (ofString front).place ++ path.place := by
  induction path with
  | root => simp [steps, place]
  | child dir name ih =>
    have hsteps : front ++ (child dir name).steps =
        front ++ dir.steps ++ "/" ++ name.text := by
      rw [steps, String.append_assoc, String.append_assoc, String.append_assoc]
    rw [hsteps, ofString_append_segment, place, ih, place, List.append_assoc]

theorem ofString_steps (path : Path) : ofString path.steps = path := by
  refine place_injective ?_
  have hplace := place_ofString_append_steps "" path
  rwa [String.empty_append, show ofString "" = root from rfl] at hplace

/-- The canonical spelling of a path leads to it. -/
theorem ofString_text (path : Path) : ofString path.text = path := by
  cases path with
  | root => decide +kernel
  | child dir name => exact ofString_steps _

theorem text_injective : Function.Injective text :=
  Function.LeftInverse.injective ofString_text

theorem text_child_ne_root (dir : Path) (name : Segment) : (dir.child name).text ≠ "/" := by
  intro htext
  have hroot : (dir.child name).text = root.text := htext
  cases text_injective hroot

/-- A canonical spelling leads where the spelling leads that it was made from. -/
theorem ofString_clean (spelling : String) : ofString (clean spelling) = ofString spelling :=
  ofString_text _

/-- A caller's name, once it is clean, leads on from wherever the base leads. -/
theorem place_join_eq (base name : String) :
    (join base name).place = (ofString base).place ++ (ofString name).place := by
  rw [join, clean]
  cases ofString name with
  | root =>
    have hslash : base ++ root.text = base ++ "/" ++ "" := by simp [text]
    have hsame : ofString (base ++ root.text) = ofString base := by
      rw [hslash, ofString_append]
      rfl
    rw [hsame, place, List.append_nil]
  | child dir name => exact place_ofString_append_steps base (dir.child name)

/-- A caller's name, once it is clean, leads on from the base and nowhere else. -/
theorem place_join (base : Path) (name : String) :
    (join base.text name).place = base.place ++ (ofString name).place := by
  rw [place_join_eq, ofString_text]

/-- The names that lead to the base itself are those that mean the root. -/
theorem join_eq_base_iff {base : Path} {name : String} :
    join base.text name = base ↔ ofString name = root := by
  constructor
  · intro hjoin
    have hplace := congrArg place hjoin
    rw [place_join, List.append_right_eq_self] at hplace
    exact place_injective hplace
  · intro hname
    refine place_injective ?_
    rw [place_join, hname, place, List.append_nil]

/-- A name that means the root leads to the base itself. -/
theorem join_of_root (base : Path) {name : String} (hname : ofString name = root) :
    join base.text name = base :=
  join_eq_base_iff.2 hname

end Path

end VirtualFs
