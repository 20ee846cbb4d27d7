import ZkLlmGateway.Encoding.Json
import Mathlib.Data.Char
import Mathlib.Data.List.Lex
import Mathlib.Data.List.Perm.Lattice
import Mathlib.Data.List.Sort

/-!
# Canonical JSON

Two values are the same when their objects are equal as maps, at every depth.
The compact serialization can be read back, so it is injective; sorting the
entries of every object chooses one value of each class.
-/

namespace ZkLlmGateway.Encoding.Json

/-! ## Values -/

/-- Induction over a value, its items and its entries. -/
theorem induction {motive : Json → Prop} (null : motive .null)
    (bool : ∀ value, motive (.bool value)) (number : ∀ token, motive (.number token))
    (string : ∀ content, motive (.string content))
    (array : ∀ items, (∀ item ∈ items, motive item) → motive (.array items))
    (object : ∀ fields, (∀ field ∈ fields, motive field.2) → motive (.object fields))
    (value : Json) : motive value :=
  @Json.rec motive (fun items => ∀ item ∈ items, motive item)
    (fun fields => ∀ field ∈ fields, motive field.2) (fun field => motive field.2)
    null bool number string array object (by simp)
    (fun _ _ first rest => List.forall_mem_cons.mpr ⟨first, rest⟩) (by simp)
    (fun _ _ first rest => List.forall_mem_cons.mpr ⟨first, rest⟩) (fun _ _ value => value) value

def isNumberChar (char : Char) : Bool :=
  (text "0123456789+-.eE").contains char

/-- The tokens that stand for numbers. -/
def IsNumber (token : Text) : Prop :=
  token ≠ [] ∧ ∀ char ∈ token, isNumberChar char = true

instance (token : Text) : Decidable (IsNumber token) :=
  @instDecidableAnd _ _ inferInstance (List.decidableBAll _ token)

mutual

/-- All numbers are number tokens, at every depth. -/
def Tokens : Json → Prop
  | number token => IsNumber token
  | array items => TokensItems items
  | object fields => TokensFields fields
  | _ => True

def TokensItems : List Json → Prop
  | [] => True
  | item :: rest => Tokens item ∧ TokensItems rest

def TokensFields : List (Text × Json) → Prop
  | [] => True
  | field :: rest => TokensField field ∧ TokensFields rest

def TokensField : Text × Json → Prop
  | (_, value) => Tokens value

end

mutual

/-- No object has two entries with one key, at every depth. -/
def Distinct : Json → Prop
  | array items => DistinctItems items
  | object fields => (fields.map Prod.fst).Nodup ∧ DistinctFields fields
  | _ => True

def DistinctItems : List Json → Prop
  | [] => True
  | item :: rest => Distinct item ∧ DistinctItems rest

def DistinctFields : List (Text × Json) → Prop
  | [] => True
  | field :: rest => DistinctField field ∧ DistinctFields rest

def DistinctField : Text × Json → Prop
  | (_, value) => Distinct value

end

mutual

/-- The same value, when objects are compared as maps. -/
def Same : Json → Json → Prop
  | null, null => True
  | bool left, bool right => left = right
  | number left, number right => left = right
  | string left, string right => left = right
  | array lefts, array rights => SameItems lefts rights
  | object lefts, object rights => lefts.length = rights.length ∧ SameFields lefts rights
  | _, _ => False

def SameItems : List Json → List Json → Prop
  | [], [] => True
  | left :: lefts, right :: rights => Same left right ∧ SameItems lefts rights
  | _, _ => False

/-- Every entry on the left is one on the right. -/
def SameFields : List (Text × Json) → List (Text × Json) → Prop
  | [], _ => True
  | left :: lefts, rights => (∃ right ∈ rights, SameField left right) ∧ SameFields lefts rights

def SameField : Text × Json → Text × Json → Prop
  | (leftKey, left), (rightKey, right) => leftKey = rightKey ∧ Same left right

end

@[simp]
theorem tokensItems_iff {items : List Json} : TokensItems items ↔ ∀ item ∈ items, Tokens item := by
  induction items with
  | nil => simp [TokensItems]
  | cons item rest inductionHypothesis => simp [TokensItems, inductionHypothesis]

@[simp]
theorem tokensFields_iff {fields : List (Text × Json)} :
    TokensFields fields ↔ ∀ field ∈ fields, Tokens field.2 := by
  induction fields with
  | nil => simp [TokensFields]
  | cons field rest inductionHypothesis =>
      rw [TokensFields, TokensField, inductionHypothesis, List.forall_mem_cons]

@[simp]
theorem distinctItems_iff {items : List Json} :
    DistinctItems items ↔ ∀ item ∈ items, Distinct item := by
  induction items with
  | nil => simp [DistinctItems]
  | cons item rest inductionHypothesis => simp [DistinctItems, inductionHypothesis]

@[simp]
theorem distinctFields_iff {fields : List (Text × Json)} :
    DistinctFields fields ↔ ∀ field ∈ fields, Distinct field.2 := by
  induction fields with
  | nil => simp [DistinctFields]
  | cons field rest inductionHypothesis =>
      rw [DistinctFields, DistinctField, inductionHypothesis, List.forall_mem_cons]

@[simp]
theorem sameItems_iff {lefts rights : List Json} :
    SameItems lefts rights ↔ List.Forall₂ Same lefts rights := by
  induction lefts generalizing rights with
  | nil => cases rights <;> simp [SameItems]
  | cons left lefts inductionHypothesis =>
      cases rights <;> simp [SameItems, inductionHypothesis]

@[simp]
theorem sameFields_iff {lefts rights : List (Text × Json)} : SameFields lefts rights ↔
    ∀ left ∈ lefts, ∃ right ∈ rights, left.1 = right.1 ∧ Same left.2 right.2 := by
  induction lefts with
  | nil => simp [SameFields]
  | cons left lefts inductionHypothesis =>
      have entry : ∀ right, SameField left right ↔ left.1 = right.1 ∧ Same left.2 right.2 :=
        fun right => by rw [SameField]
      simp only [SameFields, inductionHypothesis, List.forall_mem_cons, entry]

/-! ## Reading back -/

/-- What an escape sequence stands for, after the backslash. -/
def shortForm (char : Char) : Char :=
  if char = 'b' then .ofNat 8
  else if char = 't' then .ofNat 9
  else if char = 'n' then .ofNat 10
  else if char = 'f' then .ofNat 12
  else if char = 'r' then .ofNat 13
  else char

/-- The value of a lower-case hexadecimal digit. -/
def hexValue (char : Char) : Nat :=
  (text "0123456789abcdef").idxOf char

/-- The first character of the content of a string, and what follows it. -/
def readChar : Text → Option (Char × Text)
  | '\\' :: 'u' :: _ :: _ :: high :: low :: rest =>
      some (.ofNat (16 * hexValue high + hexValue low), rest)
  | '\\' :: short :: rest => some (shortForm short, rest)
  | char :: rest => some (char, rest)
  | [] => none

theorem readChar_unicode : ∀ n < 32, Char.ofNat (16 * hexValue (hexDigit (n / 16)) +
    hexValue (hexDigit (n % 16))) = Char.ofNat n := by
  decide

theorem readChar_escapeChar (char : Char) (rest : Text) :
    readChar (escapeChar char ++ rest) = some (char, rest) := by
  have back : ∀ n, char.toNat = n → char = Char.ofNat n := fun n equal => by
    rw [← equal, Char.ofNat_toNat]
  unfold escapeChar
  split_ifs with quote backslash backspace tab newline formFeed carriage control
  · rw [quote]
    rfl
  · rw [backslash]
    rfl
  · rw [back _ backspace]
    rfl
  · rw [back _ tab]
    rfl
  · rw [back _ newline]
    rfl
  · rw [back _ formFeed]
    rfl
  · rw [back _ carriage]
    rfl
  · have isChar := readChar_unicode char.toNat control
    rw [Char.ofNat_toNat] at isChar
    simp only [List.cons_append, List.nil_append, readChar, isChar]
  · rw [List.singleton_append]
    unfold readChar
    split
    next equal => exact absurd (List.cons.inj equal).1 backslash
    next equal => exact absurd (List.cons.inj equal).1 backslash
    next equal =>
      obtain ⟨rfl, rfl⟩ := List.cons.inj equal
      rfl
    next equal => contradiction

/-- No escaped character begins with a quotation mark. -/
theorem head?_escapeChar (char : Char) (rest : Text) :
    ∃ first after, escapeChar char ++ rest = first :: after ∧ first ≠ '"' := by
  unfold escapeChar
  split_ifs with quote
  all_goals first
    | exact ⟨'\\', _, rfl, by decide⟩
    | exact ⟨char, rest, rfl, quote⟩

theorem content_append_inj {left right before after : Text}
    (equal : left.flatMap escapeChar ++ '"' :: before = right.flatMap escapeChar ++ '"' :: after) :
    left = right ∧ before = after := by
  induction left generalizing right with
  | nil =>
      cases right with
      | nil => exact ⟨rfl, (List.cons.inj equal).2⟩
      | cons char right =>
          rw [List.flatMap_cons, List.append_assoc] at equal
          obtain ⟨first, rest, isCons, notQuote⟩ := head?_escapeChar char
            (right.flatMap escapeChar ++ '"' :: after)
          rw [isCons] at equal
          exact absurd (List.cons.inj equal).1.symm notQuote
  | cons char left inductionHypothesis =>
      rw [List.flatMap_cons, List.append_assoc] at equal
      cases right with
      | nil =>
          obtain ⟨first, rest, isCons, notQuote⟩ := head?_escapeChar char
            (left.flatMap escapeChar ++ '"' :: before)
          rw [isCons] at equal
          exact absurd (List.cons.inj equal).1 notQuote
      | cons other right =>
          rw [List.flatMap_cons, List.append_assoc] at equal
          have read := congrArg readChar equal
          rw [readChar_escapeChar, readChar_escapeChar, Option.some.injEq, Prod.mk.injEq] at read
          obtain ⟨rfl, rest⟩ := read
          obtain ⟨rfl, behind⟩ := inductionHypothesis rest
          exact ⟨rfl, behind⟩

theorem renderString_append_inj {left right before after : Text}
    (equal : renderString left ++ before = renderString right ++ after) :
    left = right ∧ before = after := by
  simp only [renderString, List.cons_append, List.append_assoc, List.cons.injEq, true_and,
    List.nil_append] at equal
  exact content_append_inj equal

/-- What follows a value does not go on with a number. -/
def Closed (rest : Text) : Prop :=
  ∀ char ∈ rest.head?, isNumberChar char = false

theorem closed_cons {char : Char} (closes : isNumberChar char = false) (rest : Text) :
    Closed (char :: rest) := by
  intro first isFirst
  rw [List.head?_cons, Option.mem_some_iff] at isFirst
  rw [← isFirst, closes]

theorem token_append_inj {left right before after : Text} (isLeft : IsNumber left)
    (isRight : IsNumber right) (closedBefore : Closed before) (closedAfter : Closed after)
    (equal : left ++ before = right ++ after) : left = right ∧ before = after := by
  have taken : ∀ {token rest : Text}, IsNumber token → Closed rest →
      (token ++ rest).takeWhile isNumberChar = token := by
    intro token rest isNumber closed
    rw [List.takeWhile_append_of_pos isNumber.2]
    have nothing : rest.takeWhile isNumberChar = [] := by
      cases rest with
      | nil => rfl
      | cons first rest => rw [List.takeWhile_cons, closed first rfl, if_neg Bool.false_ne_true]
    rw [nothing, List.append_nil]
  have tokens := congrArg (List.takeWhile isNumberChar) equal
  rw [taken isLeft closedBefore, taken isRight closedAfter] at tokens
  subst tokens
  exact ⟨rfl, List.append_cancel_left equal⟩

/-! ## The form of a value shows in its first character -/

inductive Shape
  | null
  | bool (value : Bool)
  | number
  | string
  | array
  | object
  deriving DecidableEq

def shape : Json → Shape
  | null => .null
  | bool value => .bool value
  | number _ => .number
  | string _ => .string
  | array _ => .array
  | object _ => .object

def shapeOf (char : Char) : Option Shape :=
  if char = 'n' then some .null
  else if char = 't' then some (.bool true)
  else if char = 'f' then some (.bool false)
  else if isNumberChar char then some .number
  else if char = '"' then some .string
  else if char = '[' then some .array
  else if char = '{' then some .object
  else none

theorem head_render {value : Json} (tokens : Tokens value) :
    ∃ first rest, render value = first :: rest ∧ shapeOf first = some value.shape := by
  cases value with
  | null => exact ⟨_, _, rfl, by decide⟩
  | bool value => cases value <;> exact ⟨_, _, rfl, by decide⟩
  | number token =>
      obtain ⟨nonempty, all⟩ := tokens
      cases token with
      | nil => exact absurd rfl nonempty
      | cons first rest =>
          refine ⟨first, rest, rfl, ?_⟩
          have isNumber := all first List.mem_cons_self
          have every : (text "0123456789+-.eE").all fun char => shapeOf char = some .number := by
            decide
          have shaped := List.all_eq_true.mp every first (List.elem_iff.mp isNumber)
          exact of_decide_eq_true shaped
  | string content => exact ⟨_, _, rfl, rfl⟩
  | array items => exact ⟨_, _, rfl, rfl⟩
  | object fields => exact ⟨_, _, rfl, rfl⟩

theorem shape_eq {left right : Json} {before after : Text} (tokensLeft : Tokens left)
    (tokensRight : Tokens right) (equal : render left ++ before = render right ++ after) :
    left.shape = right.shape := by
  obtain ⟨first, rest, leftIs, leftShape⟩ := head_render tokensLeft
  obtain ⟨other, more, rightIs, rightShape⟩ := head_render tokensRight
  rw [leftIs, rightIs, List.cons_append, List.cons_append, List.cons.injEq] at equal
  rw [equal.1, rightShape] at leftShape
  exact (Option.some.inj leftShape).symm

/-! ## Items between commas -/

/-- Items between commas. -/
def commas {α : Type} (write : α → Text) : List α → Text
  | [] => []
  | item :: rest => write item ++ rest.flatMap fun item => ',' :: write item

theorem renderItems_eq (items : List Json) : renderItems items = commas render items := by
  have more : ∀ items, renderMoreItems items = items.flatMap fun item => ',' :: render item := by
    intro items
    induction items with
    | nil => rfl
    | cons item rest inductionHypothesis =>
        rw [renderMoreItems, inductionHypothesis, List.flatMap_cons, List.cons_append]
  cases items with
  | nil => rfl
  | cons item rest => rw [renderItems, more, commas]

theorem renderFields_eq (fields : List (Text × Json)) :
    renderFields fields = commas renderField fields := by
  have more : ∀ fields, renderMoreFields fields =
      fields.flatMap fun field => ',' :: renderField field := by
    intro fields
    induction fields with
    | nil => rfl
    | cons field rest inductionHypothesis =>
        rw [renderMoreFields, inductionHypothesis, List.flatMap_cons, List.cons_append]
  cases fields with
  | nil => rfl
  | cons field rest => rw [renderFields, more, commas]

section Commas

variable {α : Type} {write : α → Text} {close : Char} {before after : Text}

/-- What is written of an item on the left is not the beginning of another item. -/
def Readable (write : α → Text) (left right : α) : Prop :=
  ∀ before after, Closed before → Closed after → write left ++ before = write right ++ after →
    left = right ∧ before = after

theorem closed_more (closes : isNumberChar close = false) (items : List α) (rest : Text) :
    Closed ((items.flatMap fun item => ',' :: write item) ++ close :: rest) := by
  cases items with
  | nil => exact closed_cons closes rest
  | cons item items => exact closed_cons (by decide) _

theorem more_append_inj {lefts rights : List α} (closes : isNumberChar close = false)
    (noComma : close ≠ ',')
    (readable : ∀ left ∈ lefts, ∀ right ∈ rights, Readable write left right)
    (equal : (lefts.flatMap fun item => ',' :: write item) ++ close :: before =
      (rights.flatMap fun item => ',' :: write item) ++ close :: after) :
    lefts = rights ∧ before = after := by
  induction lefts generalizing rights with
  | nil =>
      cases rights with
      | nil => exact ⟨rfl, (List.cons.inj equal).2⟩
      | cons right rights => exact absurd (List.cons.inj equal).1 noComma
  | cons left lefts inductionHypothesis =>
      cases rights with
      | nil => exact absurd (List.cons.inj equal).1.symm noComma
      | cons right rights =>
          simp only [List.flatMap_cons, List.cons_append, List.append_assoc, List.cons.injEq,
            true_and] at equal
          obtain ⟨rfl, rest⟩ := readable left List.mem_cons_self right List.mem_cons_self _ _
            (closed_more closes lefts before) (closed_more closes rights after) equal
          obtain ⟨rfl, behind⟩ := inductionHypothesis (fun left member right inside =>
            readable left (List.mem_cons_of_mem _ member) right (List.mem_cons_of_mem _ inside))
            rest
          exact ⟨rfl, behind⟩

theorem commas_append_inj {lefts rights : List α} (closes : isNumberChar close = false)
    (noComma : close ≠ ',')
    (opens : ∀ item, item ∈ lefts ∨ item ∈ rights → ∀ rest, (write item ++ rest).head? ≠ some close)
    (readable : ∀ left ∈ lefts, ∀ right ∈ rights, Readable write left right)
    (equal : commas write lefts ++ close :: before = commas write rights ++ close :: after) :
    lefts = rights ∧ before = after := by
  cases lefts with
  | nil =>
      cases rights with
      | nil => exact ⟨rfl, (List.cons.inj equal).2⟩
      | cons right rights =>
          rw [commas, commas, List.append_assoc] at equal
          exact absurd (congrArg List.head? equal).symm (opens right (.inr List.mem_cons_self) _)
  | cons left lefts =>
      cases rights with
      | nil =>
          rw [commas, commas, List.append_assoc] at equal
          exact absurd (congrArg List.head? equal) (opens left (.inl List.mem_cons_self) _)
      | cons right rights =>
          rw [commas, commas, List.append_assoc, List.append_assoc] at equal
          obtain ⟨rfl, rest⟩ := readable left List.mem_cons_self right List.mem_cons_self _ _
            (closed_more closes lefts before) (closed_more closes rights after) equal
          obtain ⟨rfl, behind⟩ := more_append_inj closes noComma (fun left member right inside =>
            readable left (List.mem_cons_of_mem _ member) right (List.mem_cons_of_mem _ inside))
            rest
          exact ⟨rfl, behind⟩

end Commas

/-! ## The serialization is injective -/

theorem readable_render (left : Json) : Tokens left →
    ∀ right, Tokens right → Readable render left right := by
  induction left using induction with
  | null =>
      intro tokensLeft right tokensRight before after _ _ equal
      have shapes := shape_eq tokensLeft tokensRight equal
      cases right <;> first | contradiction | exact ⟨rfl, List.append_cancel_left equal⟩
  | bool value =>
      intro tokensLeft right tokensRight before after _ _ equal
      have shapes := shape_eq tokensLeft tokensRight equal
      cases right with
      | bool other =>
          obtain rfl : value = other := Shape.bool.inj shapes
          exact ⟨rfl, List.append_cancel_left equal⟩
      | _ => contradiction
  | number token =>
      intro tokensLeft right tokensRight before after closedBefore closedAfter equal
      have shapes := shape_eq tokensLeft tokensRight equal
      cases right with
      | number other =>
          obtain ⟨rfl, behind⟩ := token_append_inj tokensLeft tokensRight closedBefore closedAfter
            equal
          exact ⟨rfl, behind⟩
      | _ => contradiction
  | string content =>
      intro tokensLeft right tokensRight before after _ _ equal
      have shapes := shape_eq tokensLeft tokensRight equal
      cases right with
      | string other =>
          obtain ⟨rfl, behind⟩ := renderString_append_inj equal
          exact ⟨rfl, behind⟩
      | _ => contradiction
  | array items inductionHypothesis =>
      intro tokensLeft right tokensRight before after _ _ equal
      have shapes := shape_eq tokensLeft tokensRight equal
      cases right with
      | array others =>
          rw [Tokens, tokensItems_iff] at tokensLeft tokensRight
          simp only [render, renderItems_eq, List.cons_append, List.append_assoc,
            List.cons.injEq, true_and, List.nil_append] at equal
          obtain ⟨rfl, behind⟩ := commas_append_inj (by decide) (by decide)
            (fun item inside rest isClose => by
              have tokens : Tokens item := inside.elim (tokensLeft item) (tokensRight item)
              obtain ⟨first, more, isCons, shaped⟩ := head_render tokens
              rw [isCons, List.cons_append, List.head?_cons, Option.some.injEq] at isClose
              subst isClose
              contradiction)
            (fun left member right inside => inductionHypothesis left member
              (tokensLeft left member) right (tokensRight right inside)) equal
          exact ⟨rfl, behind⟩
      | _ => contradiction
  | object fields inductionHypothesis =>
      intro tokensLeft right tokensRight before after _ _ equal
      have shapes := shape_eq tokensLeft tokensRight equal
      cases right with
      | object others =>
          rw [Tokens, tokensFields_iff] at tokensLeft tokensRight
          simp only [render, renderFields_eq, List.cons_append, List.append_assoc,
            List.cons.injEq, true_and, List.nil_append] at equal
          obtain ⟨rfl, behind⟩ := commas_append_inj (by decide) (by decide)
            (fun field _ rest isClose => by
              obtain ⟨key, value⟩ := field
              rw [renderField, renderString, List.cons_append, List.cons_append,
                List.head?_cons] at isClose
              contradiction)
            (fun left member right inside before after closedBefore closedAfter fieldEqual => by
              obtain ⟨leftKey, leftValue⟩ := left
              obtain ⟨rightKey, rightValue⟩ := right
              simp only [renderField, List.append_assoc, List.cons_append] at fieldEqual
              obtain ⟨rfl, values⟩ := renderString_append_inj fieldEqual
              obtain ⟨rfl, behind⟩ := inductionHypothesis _ member (tokensLeft _ member) rightValue
                (tokensRight _ inside) before after closedBefore closedAfter
                (List.cons.inj values).2
              exact ⟨rfl, behind⟩) equal
          exact ⟨rfl, behind⟩
      | _ => contradiction

/-- **The compact serialization is injective.** -/
theorem render_inj {left right : Json} (tokensLeft : Tokens left) (tokensRight : Tokens right)
    (equal : render left = render right) : left = right := by
  have closed : Closed [] := by simp [Closed]
  have extended : render left ++ [] = render right ++ [] := by rw [equal]
  exact (readable_render left tokensLeft right tokensRight [] [] closed closed extended).1

/-! ## Sorted objects -/

section Fields

variable {fields others : List (Text × Json)} {field : Text × Json}

/-- Entries in the order of their keys. -/
def Sorted (fields : List (Text × Json)) : Prop :=
  fields.Pairwise fun left right => left.1 < right.1

theorem mem_insertField (sorted : Sorted fields) {entry : Text × Json} :
    entry ∈ insertField field fields ↔ entry = field ∨ (entry ∈ fields ∧ entry.1 ≠ field.1) := by
  induction fields with
  | nil => simp [insertField]
  | cons other rest inductionHypothesis =>
      obtain ⟨before, sortedRest⟩ := List.pairwise_cons.mp sorted
      rw [insertField]
      split
      next less =>
        have apart : ∀ entry ∈ other :: rest, entry.1 ≠ field.1 := by
          rw [List.forall_mem_cons]
          refine ⟨fun same => ?_, fun entry member same => ?_⟩
          · exact List.lt_irrefl _ (same ▸ less)
          · exact List.lt_irrefl _ (same ▸ List.lt_trans less (before entry member))
        rw [List.mem_cons]
        exact or_congr_right ⟨fun member => ⟨member, apart entry member⟩, And.left⟩
      next notLess =>
        split
        next same =>
          have apart : ∀ entry ∈ rest, entry.1 ≠ field.1 := fun entry member equal =>
            List.lt_irrefl _ (equal ▸ same ▸ before entry member)
          simp only [List.mem_cons]
          constructor
          · rintro (rfl | member)
            · exact .inl rfl
            · exact .inr ⟨.inr member, apart entry member⟩
          · rintro (rfl | ⟨rfl | member, differ⟩)
            · exact .inl rfl
            · exact absurd same.symm differ
            · exact .inr member
        next differ =>
          simp only [List.mem_cons, inductionHypothesis sortedRest]
          constructor
          · rintro (rfl | rfl | ⟨member, apart⟩)
            · exact .inr ⟨.inl rfl, fun equal => differ equal.symm⟩
            · exact .inl rfl
            · exact .inr ⟨.inr member, apart⟩
          · rintro (rfl | ⟨rfl | member, apart⟩)
            · exact .inr (.inl rfl)
            · exact .inl rfl
            · exact .inr (.inr ⟨member, apart⟩)

theorem Sorted.insertField (sorted : Sorted fields) : Sorted (insertField field fields) := by
  induction fields with
  | nil => exact List.pairwise_singleton _ _
  | cons other rest inductionHypothesis =>
      obtain ⟨before, sortedRest⟩ := List.pairwise_cons.mp sorted
      rw [Json.insertField]
      split
      next less =>
        refine List.pairwise_cons.mpr ⟨fun entry member => ?_, sorted⟩
        rcases List.mem_cons.mp member with rfl | inRest
        · exact less
        · exact List.lt_trans less (before entry inRest)
      next notLess =>
        split
        next same => exact List.pairwise_cons.mpr ⟨fun entry member => same ▸ before entry member,
          sortedRest⟩
        next differ =>
          refine List.pairwise_cons.mpr ⟨fun entry member => ?_, inductionHypothesis sortedRest⟩
          rcases (mem_insertField sortedRest).mp member with rfl | ⟨inRest, _⟩
          · exact (List.le_iff_lt_or_eq.mp (List.not_lt.mp notLess)).resolve_right
              fun equal => differ equal.symm
          · exact before entry inRest

theorem sortFields_concat (fields : List (Text × Json)) (field : Text × Json) :
    sortFields (fields ++ [field]) = insertField field (sortFields fields) := by
  rw [sortFields, List.foldl_append, List.foldl_cons, List.foldl_nil, ← sortFields]

theorem sorted_sortFields (fields : List (Text × Json)) : Sorted (sortFields fields) := by
  induction fields using List.reverseRecOn with
  | nil => exact List.Pairwise.nil
  | append_singleton fields field inductionHypothesis =>
      rw [sortFields_concat]
      exact inductionHypothesis.insertField

theorem mem_of_mem_sortFields {entry : Text × Json} (member : entry ∈ sortFields fields) :
    entry ∈ fields := by
  induction fields using List.reverseRecOn with
  | nil => exact member
  | append_singleton fields field inductionHypothesis =>
      rw [sortFields_concat, mem_insertField (sorted_sortFields fields)] at member
      rcases member with rfl | ⟨inFields, _⟩
      · exact List.mem_append_right _ List.mem_cons_self
      · exact List.mem_append_left _ (inductionHypothesis inFields)

theorem mem_sortFields (distinct : (fields.map Prod.fst).Nodup) {entry : Text × Json} :
    entry ∈ sortFields fields ↔ entry ∈ fields := by
  refine ⟨mem_of_mem_sortFields, fun member => ?_⟩
  induction fields using List.reverseRecOn with
  | nil => exact member
  | append_singleton fields field inductionHypothesis =>
      rw [List.map_append, List.nodup_append] at distinct
      obtain ⟨distinctFields, _, apart⟩ := distinct
      rw [sortFields_concat, mem_insertField (sorted_sortFields fields)]
      rcases List.mem_append.mp member with inFields | isLast
      · exact .inr ⟨inductionHypothesis distinctFields inFields,
          apart entry.1 (List.mem_map_of_mem inFields) field.1 (List.mem_singleton_self _)⟩
      · exact .inl (List.mem_singleton.mp isLast)

theorem Sorted.nodup (sorted : Sorted fields) : (fields.map Prod.fst).Nodup := by
  rw [List.Nodup, List.pairwise_map]
  refine sorted.imp fun {left right} less same => ?_
  rw [same] at less
  exact List.lt_irrefl _ less

theorem perm_sortFields (distinct : (fields.map Prod.fst).Nodup) :
    (sortFields fields).Perm fields :=
  (List.perm_ext_iff_of_nodup (List.Nodup.of_map _ (sorted_sortFields fields).nodup)
    (List.Nodup.of_map _ distinct)).mpr fun _ => mem_sortFields distinct

theorem Sorted.eq_of_perm (left : Sorted fields) (right : Sorted others)
    (perm : fields.Perm others) : fields = others :=
  perm.eq_of_pairwise (fun _ _ _ _ less greater =>
    absurd (List.lt_trans less greater) (List.lt_irrefl _)) left right

theorem sortFields_eq_iff (distinct : (fields.map Prod.fst).Nodup)
    (distinctOthers : (others.map Prod.fst).Nodup) :
    sortFields fields = sortFields others ↔ fields.Perm others := by
  constructor
  · intro equal
    have perm := perm_sortFields distinct
    rw [equal] at perm
    exact perm.symm.trans (perm_sortFields distinctOthers)
  · intro perm
    exact (sorted_sortFields fields).eq_of_perm (sorted_sortFields others)
      ((perm_sortFields distinct).trans (perm.trans (perm_sortFields distinctOthers).symm))

end Fields

/-! ## Canonical values -/

theorem canonicalizeItems_eq (items : List Json) :
    canonicalizeItems items = items.map canonicalize := by
  induction items with
  | nil => rfl
  | cons item rest inductionHypothesis =>
      rw [canonicalizeItems, inductionHypothesis, List.map_cons]

theorem canonicalizeFields_eq (fields : List (Text × Json)) :
    canonicalizeFields fields = fields.map fun field => (field.1, canonicalize field.2) := by
  induction fields with
  | nil => rfl
  | cons field rest inductionHypothesis =>
      rw [canonicalizeFields, inductionHypothesis, List.map_cons, canonicalizeField]

theorem keys_canonicalizeFields (fields : List (Text × Json)) :
    (canonicalizeFields fields).map Prod.fst = fields.map Prod.fst := by
  rw [canonicalizeFields_eq, List.map_map]
  rfl

theorem Tokens.canonicalize {value : Json} : Tokens value → Tokens value.canonicalize := by
  induction value using induction with
  | array items inductionHypothesis =>
      intro tokens
      rw [Tokens, tokensItems_iff] at tokens
      rw [Json.canonicalize, canonicalizeItems_eq, Tokens, tokensItems_iff, List.forall_mem_map]
      exact fun item member => inductionHypothesis item member (tokens item member)
  | object fields inductionHypothesis =>
      intro tokens
      rw [Tokens, tokensFields_iff] at tokens
      rw [Json.canonicalize, Tokens, tokensFields_iff]
      intro field member
      have before := mem_of_mem_sortFields member
      rw [canonicalizeFields_eq, List.mem_map] at before
      obtain ⟨source, inside, rfl⟩ := before
      exact inductionHypothesis source inside (tokens source inside)
  | _ => exact id

theorem distinct_canonicalize (value : Json) : Distinct value.canonicalize := by
  induction value using induction with
  | array items inductionHypothesis =>
      rw [canonicalize, canonicalizeItems_eq, Distinct, distinctItems_iff, List.forall_mem_map]
      exact inductionHypothesis
  | object fields inductionHypothesis =>
      rw [canonicalize, Distinct, distinctFields_iff]
      refine ⟨(sorted_sortFields _).nodup, fun field member => ?_⟩
      have before := mem_of_mem_sortFields member
      rw [canonicalizeFields_eq, List.mem_map] at before
      obtain ⟨source, inside, rfl⟩ := before
      exact inductionHypothesis source inside
  | _ => trivial

/-- What has been sorted stays as it is. -/
theorem canonicalize_canonicalize (value : Json) :
    value.canonicalize.canonicalize = value.canonicalize := by
  induction value using induction with
  | array items inductionHypothesis =>
      have same : items.map (canonicalize ∘ canonicalize) = items.map canonicalize :=
        List.map_congr_left inductionHypothesis
      rw [canonicalize, canonicalize, canonicalizeItems_eq, canonicalizeItems_eq, List.map_map,
        same]
  | object fields inductionHypothesis =>
      have same : canonicalizeFields (sortFields (canonicalizeFields fields)) =
          sortFields (canonicalizeFields fields) := by
        rw [canonicalizeFields_eq]
        refine (List.map_congr_left fun field member => ?_).trans (List.map_id _)
        have before := mem_of_mem_sortFields member
        rw [canonicalizeFields_eq, List.mem_map] at before
        obtain ⟨source, inside, rfl⟩ := before
        rw [inductionHypothesis source inside, id_eq]
      have sorted := sorted_sortFields (canonicalizeFields fields)
      rw [canonicalize, canonicalize, same]
      rw [(sorted_sortFields _).eq_of_perm sorted (perm_sortFields sorted.nodup)]
  | _ => rfl

/-- **Canonical values** are equal for the same values only. -/
theorem canonicalize_eq_iff_same (left : Json) : Distinct left →
    ∀ right, Distinct right → (left.canonicalize = right.canonicalize ↔ Same left right) := by
  induction left using induction with
  | array items inductionHypothesis =>
      intro distinct right distinctRight
      cases right with
      | array others =>
          rw [Distinct, distinctItems_iff] at distinct distinctRight
          rw [canonicalize, canonicalize, canonicalizeItems_eq, canonicalizeItems_eq, Same,
            sameItems_iff, array.injEq]
          induction items generalizing others with
          | nil => cases others <;> simp
          | cons item items restHypothesis =>
              cases others with
              | nil => simp
              | cons other others =>
                  rw [List.forall_mem_cons] at distinct distinctRight inductionHypothesis
                  rw [List.map_cons, List.map_cons, List.cons.injEq, List.forall₂_cons,
                    inductionHypothesis.1 distinct.1 other distinctRight.1,
                    restHypothesis inductionHypothesis.2 distinct.2 others distinctRight.2]
      | _ => simp [canonicalize, Same]
  | object fields inductionHypothesis =>
      intro distinct right distinctRight
      cases right with
      | object others =>
          rw [Distinct, distinctFields_iff] at distinct distinctRight
          have keys : ((canonicalizeFields fields).map Prod.fst).Nodup := by
            rw [keys_canonicalizeFields]
            exact distinct.1
          have otherKeys : ((canonicalizeFields others).map Prod.fst).Nodup := by
            rw [keys_canonicalizeFields]
            exact distinctRight.1
          have lengths : ∀ fields, (canonicalizeFields fields).length = fields.length :=
            fun fields => by rw [canonicalizeFields_eq, List.length_map]
          rw [canonicalize, canonicalize, object.injEq, sortFields_eq_iff keys otherKeys, Same,
            sameFields_iff]
          constructor
          · intro perm
            refine ⟨by rw [← lengths, perm.length_eq, lengths], fun field member => ?_⟩
            have inside : (field.1, canonicalize field.2) ∈ canonicalizeFields others := by
              rw [← perm.mem_iff, canonicalizeFields_eq]
              exact List.mem_map_of_mem member
            rw [canonicalizeFields_eq, List.mem_map] at inside
            obtain ⟨other, inOthers, equal⟩ := inside
            obtain ⟨sameKey, sameValue⟩ := Prod.mk.inj equal
            exact ⟨other, inOthers, sameKey.symm, (inductionHypothesis field member
              (distinct.2 field member) other.2 (distinctRight.2 other inOthers)).mp sameValue.symm⟩
          · rintro ⟨sameLength, each⟩
            have subset : canonicalizeFields fields ⊆ canonicalizeFields others := by
              intro entry member
              rw [canonicalizeFields_eq, List.mem_map] at member ⊢
              obtain ⟨field, inFields, rfl⟩ := member
              obtain ⟨other, inOthers, sameKey, sameValue⟩ := each field inFields
              refine ⟨other, inOthers, ?_⟩
              rw [sameKey, (inductionHypothesis field inFields (distinct.2 field inFields) other.2
                (distinctRight.2 other inOthers)).mpr sameValue]
            exact (List.subperm_of_subset (List.Nodup.of_map _ keys) subset).perm_of_length_le
              (by rw [lengths, lengths, sameLength])
      | _ => simp [canonicalize, Same]
  | _ =>
      intro _ right _
      cases right <;> simp [canonicalize, Same]

/-- A value is the same as its canonical form. -/
theorem same_canonicalize {value : Json} (distinct : Distinct value) :
    Same value value.canonicalize :=
  (canonicalize_eq_iff_same value distinct _ (distinct_canonicalize value)).mp
    (canonicalize_canonicalize value).symm

end ZkLlmGateway.Encoding.Json
