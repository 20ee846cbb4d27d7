import ZkLlmGateway.Encoding.Text
import Mathlib.Data.List.Basic

/-!
# Paths

A path is its bytes, and two paths are compared by their components.  Relative
to a current directory it leads to a location, the names on the way down from
the root; there are no links.
-/

namespace ZkLlmGateway.Encoding

abbrev Path := Bytes

namespace Path

/-- The separator, a slash. -/
def separator : UInt8 := 47

/-- The pieces between the separators. -/
def pieces : Path → List Bytes
  | [] => [[]]
  | byte :: rest =>
      if byte = separator then [] :: pieces rest
      else
        match pieces rest with
        | [] => [[byte]]
        | piece :: later => (byte :: piece) :: later

inductive Component
  | rootDir
  | curDir
  | parentDir
  | normal (name : Bytes)
  deriving DecidableEq

def component? (piece : Bytes) : Option Component :=
  if piece = [] ∨ piece = utf8 (text ".") then none
  else if piece = utf8 (text "..") then some .parentDir
  else some (.normal piece)

/-- Only a dot at the start of a path is a component. -/
def start (path : Path) : List Component :=
  if path.head? = some separator then [.rootDir]
  else if (pieces path).head? = some (utf8 (text ".")) then [.curDir]
  else []

def components (path : Path) : List Component :=
  start path ++ (pieces path).filterMap component?

def join (path other : Path) : Path :=
  if other.head? = some separator then other
  else if path = [] ∨ path.getLast? = some separator then path ++ other
  else path ++ separator :: other

/-- What can be the name of an entry of a directory. -/
structure IsName (name : Bytes) : Prop where
  ne_dot : name ≠ utf8 (text ".")
  ne_dots : name ≠ utf8 (text "..")
  ne_nil : name ≠ []
  separator : separator ∉ name

/-! ## Pieces -/

theorem pieces_ne_nil (path : Path) : pieces path ≠ [] := by
  cases path with
  | nil => simp [pieces]
  | cons byte rest =>
      rw [pieces]
      split
      next => simp
      next => split <;> simp

theorem pieces_append_separator (path rest : Path) :
    pieces (path ++ separator :: rest) = pieces path ++ pieces rest := by
  induction path with
  | nil => rfl
  | cons byte path inductionHypothesis =>
      rw [List.cons_append, pieces, pieces, inductionHypothesis]
      cases front : pieces path with
      | nil => exact absurd front (pieces_ne_nil path)
      | cons piece later => split <;> rfl

theorem pieces_of_not_mem {name : Bytes} (absent : separator ∉ name) : pieces name = [name] := by
  induction name with
  | nil => rfl
  | cons byte name inductionHypothesis =>
      rw [List.mem_cons, not_or] at absent
      rw [pieces, if_neg (Ne.symm absent.1), inductionHypothesis absent.2]

/-! ## Texts -/

theorem utf8EncodeChar_of_separator {char : Char}
    (inside : separator ∈ String.utf8EncodeChar char) :
    String.utf8EncodeChar char = [separator] := by
  have large : ∀ n, n % 256 ≥ 128 → separator ≠ UInt8.ofNat n := by
    intro n isLarge same
    have values := congrArg UInt8.toNat same
    rw [UInt8.toNat_ofNat'] at values
    have small : separator.toNat = 47 := rfl
    omega
  unfold String.utf8EncodeChar at inside ⊢
  simp only at inside ⊢
  split at inside
  next first =>
    rw [if_pos first]
    rw [List.mem_singleton] at inside
    rw [← inside]
  next =>
    split at inside
    next =>
      simp only [List.mem_cons, List.not_mem_nil, or_false] at inside
      rcases inside with here | here <;> exact absurd here (large _ (by omega))
    next =>
      split at inside
      next =>
        simp only [List.mem_cons, List.not_mem_nil, or_false] at inside
        rcases inside with here | here | here <;> exact absurd here (large _ (by omega))
      next =>
        simp only [List.mem_cons, List.not_mem_nil, or_false] at inside
        rcases inside with here | here | here | here <;> exact absurd here (large _ (by omega))

/-- A path is a text on both sides of a separator. -/
theorem isText_append_separator_iff {path rest : Path} :
    IsText (path ++ separator :: rest) ↔ IsText path ∧ IsText rest := by
  constructor
  · rintro ⟨content, same⟩
    induction content generalizing path with
    | nil => simp at same
    | cons char content inductionHypothesis =>
        rw [utf8_cons] at same
        rcases List.append_eq_append_iff.mp same with
          ⟨bytes, isChar, isRest⟩ | ⟨bytes, rfl, isRest⟩
        · cases bytes with
          | nil =>
              rw [List.append_nil] at isChar
              rw [← isChar]
              have later : ([] : Path) ++ separator :: rest = utf8 content := isRest
              exact ⟨⟨[char], (List.append_nil _).symm⟩, (inductionHypothesis later).2⟩
          | cons byte bytes =>
              rw [List.cons_append, List.cons.injEq] at isRest
              obtain ⟨rfl, rfl⟩ := isRest
              have inside : separator ∈ String.utf8EncodeChar char := by
                rw [isChar]
                exact List.mem_append_right _ List.mem_cons_self
              rw [utf8EncodeChar_of_separator inside] at isChar
              have lengths := congrArg List.length isChar
              rw [List.length_append, List.length_cons, List.length_cons, List.length_nil]
                at lengths
              rw [List.eq_nil_of_length_eq_zero (show path.length = 0 by omega),
                List.eq_nil_of_length_eq_zero (show bytes.length = 0 by omega)]
              exact ⟨⟨[], rfl⟩, content, rfl⟩
        · obtain ⟨⟨front, rfl⟩, isText⟩ := inductionHypothesis isRest.symm
          exact ⟨⟨char :: front, rfl⟩, isText⟩
  · rintro ⟨⟨front, rfl⟩, back, rfl⟩
    refine ⟨front ++ '/' :: back, ?_⟩
    rw [utf8_append, utf8_cons]
    rfl

/-- A path is a text exactly when all its pieces are. -/
theorem isText_iff_pieces (path : Path) : IsText path ↔ ∀ piece ∈ pieces path, IsText piece := by
  induction length : path.length using Nat.strong_induction_on generalizing path with
  | _ size inductionHypothesis =>
      by_cases inside : separator ∈ path
      · obtain ⟨front, back, rfl⟩ := List.append_of_mem inside
        rw [List.length_append, List.length_cons] at length
        rw [isText_append_separator_iff, pieces_append_separator, List.forall_mem_append,
          inductionHypothesis front.length (by omega) front rfl,
          inductionHypothesis back.length (by omega) back rfl]
      · rw [pieces_of_not_mem inside, List.forall_mem_singleton]

/-- Only names may be no texts. -/
theorem isText_iff_components (path : Path) :
    IsText path ↔ ∀ name, .normal name ∈ components path → IsText name := by
  rw [isText_iff_pieces]
  have ofStart : ∀ name, .normal name ∉ start path := by
    intro name member
    rw [start] at member
    split at member
    · simp at member
    · split at member <;> simp at member
  constructor
  · intro texts name member
    rcases List.mem_append.mp member with atStart | later
    · exact absurd atStart (ofStart name)
    · obtain ⟨piece, isPiece, isName⟩ := List.mem_filterMap.mp later
      rw [component?] at isName
      split at isName
      · contradiction
      · split at isName
        · cases isName
        · cases isName
          exact texts name isPiece
  · intro texts piece isPiece
    by_cases blank : piece = [] ∨ piece = utf8 (text ".")
    · rcases blank with rfl | rfl
      · exact ⟨[], rfl⟩
      · exact ⟨text ".", rfl⟩
    · by_cases isParent : piece = utf8 (text "..")
      · exact ⟨text "..", isParent⟩
      · apply texts
        apply List.mem_append_right
        exact List.mem_filterMap.mpr ⟨piece, isPiece, by rw [component?, if_neg blank,
          if_neg isParent]⟩

/-- A path that is compared equal to a text is one. -/
theorem isText_of_components_eq {content : Text} {path : Path}
    (same : components (utf8 content) = components path) : IsText path := by
  rw [isText_iff_components, ← same, ← isText_iff_components]
  exact ⟨content, rfl⟩

/-! ## Entries of a directory -/

section Entries

variable {path name : Path}

theorem IsName.component?_eq (isName : IsName name) : component? name = some (.normal name) := by
  rw [component?, if_neg, if_neg isName.ne_dots]
  exact not_or.mpr ⟨isName.ne_nil, isName.ne_dot⟩

theorem IsName.head? (isName : IsName name) : name.head? ≠ some Path.separator := fun head =>
  isName.separator (List.mem_of_mem_head? head)

/-- A name of three bytes or more remains a name when bytes are put after it. -/
theorem IsName.append (isName : IsName name) (long : 2 < name.length) {rest : Bytes}
    (absent : Path.separator ∉ rest) : IsName (name ++ rest) := by
  have longer : ∀ {other : Bytes}, other.length ≤ 2 → name ++ rest ≠ other := by
    rintro other short rfl
    rw [List.length_append] at short
    omega
  refine ⟨longer (by decide), longer (by decide), longer (by decide), ?_⟩
  rw [List.mem_append, not_or]
  exact ⟨isName.separator, absent⟩

theorem start_append_separator (path rest other : Path) :
    start (path ++ separator :: rest) = start (path ++ separator :: other) := by
  have heads : ∀ later, (pieces path ++ later).head? = (pieces path).head? := fun _ =>
    List.head?_append_of_ne_nil _ (pieces_ne_nil path)
  cases path with
  | nil => rfl
  | cons byte path =>
      rw [start, start, pieces_append_separator, pieces_append_separator, heads, heads]
      rfl

theorem start_append (rest : Path) (nonempty : path ≠ []) :
    start (path ++ separator :: rest) = start path := by
  rw [start, start, pieces_append_separator,
    List.head?_append_of_ne_nil _ (pieces_ne_nil path), List.head?_append_of_ne_nil _ nonempty]

theorem filterMap_pieces_append (isName : IsName name) :
    (pieces (path ++ separator :: name)).filterMap component? =
      (pieces path).filterMap component? ++ [.normal name] := by
  rw [pieces_append_separator, pieces_of_not_mem isName.separator, List.filterMap_append,
    List.filterMap_cons_some isName.component?_eq, List.filterMap_nil]

/-- An entry of a directory is one component further. -/
theorem components_join (isName : IsName name) :
    components (join path name) = components path ++ [.normal name] := by
  rw [join, if_neg isName.head?]
  split
  next front =>
    rcases front with rfl | ends
    · have single := pieces_of_not_mem isName.separator
      have noDot : ¬some name = some (utf8 (text ".")) := fun dot =>
        isName.ne_dot (Option.some.inj dot)
      rw [List.nil_append, components, start, single, if_neg isName.head?, List.head?_cons,
        if_neg noDot, List.filterMap_cons_some isName.component?_eq]
      rfl
    · obtain ⟨front, rfl⟩ := List.getLast?_eq_some_iff.mp ends
      rw [List.append_assoc, List.singleton_append, components,
        filterMap_pieces_append isName, components, start_append_separator front name [],
        pieces_append_separator, List.filterMap_append, List.append_assoc, List.append_assoc]
      rfl
  next front =>
    rw [not_or] at front
    rw [components, filterMap_pieces_append isName, start_append name front.1,
      ← List.append_assoc, components]

/-- A name that is a text has a path that is one exactly where the directory has. -/
theorem isText_join_iff {content : Text} (isName : IsName (utf8 content)) :
    IsText (join path (utf8 content)) ↔ IsText path := by
  rw [isText_iff_components, isText_iff_components path, components_join isName]
  constructor
  · exact fun texts name member => texts name (List.mem_append_left _ member)
  · intro texts name member
    rcases List.mem_append.mp member with inPath | isLast
    · exact texts name inPath
    · cases List.mem_singleton.mp isLast
      exact ⟨content, rfl⟩

/-- A dot before a name does not change where an entry of a directory is. -/
theorem components_join_dot (isName : IsName name) (nonempty : path ≠ []) :
    components (join path (utf8 (text "./") ++ name)) = components (join path name) := by
  have dot : utf8 (text "./") ++ name = utf8 (text ".") ++ separator :: name := rfl
  have alone : pieces (utf8 (text ".")) = [utf8 (text ".")] := by decide +kernel
  have none : component? (utf8 (text ".")) = Option.none := by decide +kernel
  have relative : (utf8 (text ".") ++ separator :: name).head? = some 46 := rfl
  rw [components_join isName, dot, join, relative, if_neg (by decide)]
  split
  next ends =>
    obtain ⟨front, rfl⟩ := List.getLast?_eq_some_iff.mp (ends.resolve_left nonempty)
    rw [List.append_assoc, List.singleton_append, components, pieces_append_separator,
      List.filterMap_append, filterMap_pieces_append isName, alone,
      start_append_separator front _ [], components, pieces_append_separator, List.filterMap_append]
    simp [pieces, component?]
  next front =>
    rw [not_or] at front
    rw [components, pieces_append_separator, List.filterMap_append, filterMap_pieces_append isName,
      alone, start_append _ front.1, components]
    simp [none]

/-- The entries of a directory have paths of their own. -/
theorem name_eq_of_components_eq {left right : Path} (isLeft : IsName left) (isRight : IsName right)
    (same : components (join path left) = components (join path right)) : left = right := by
  rw [components_join isLeft, components_join isRight] at same
  simpa using same

end Entries

/-! ## Locations -/

/-- Where a component leads to. -/
def enter (location : List Bytes) : Component → List Bytes
  | .rootDir => []
  | .curDir => location
  | .parentDir => location.dropLast
  | .normal name => location ++ [name]

/-- Where a path leads to from the current directory. -/
def locate (current : List Bytes) (path : Path) : List Bytes :=
  (components path).foldl enter current

theorem locate_join (current : List Bytes) {path name : Path} (isName : IsName name) :
    locate current (join path name) = locate current path ++ [name] := by
  rw [locate, components_join isName, List.foldl_append]
  rfl

theorem locate_eq_of_components_eq (current : List Bytes) {left right : Path}
    (equal : components left = components right) : locate current left = locate current right := by
  rw [locate, locate, equal]

end Path

end ZkLlmGateway.Encoding
