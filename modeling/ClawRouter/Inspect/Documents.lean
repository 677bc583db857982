/-
  Subject:   JSON documents as their texts have them, what `JSON.parse` makes of them, and their tokens.

  A document may repeat a key; a number is its text. The text of a key, a string or a number arrives in
  any number of chunks.

  * `values`, `depth`, `longest`: what a parser may bound.
-/
import ClawRouter.Inspect.Projection

namespace ClawRouter.Inspect

open Utf16 Js

/-- A JSON document, with its keys and numbers as they are written. -/
inductive Document
  | null
  | bool (b : Bool)
  | num (text : Text)
  | str (text : Text)
  | arr (items : List Document)
  | obj (members : List (Text × Document))

namespace Document

/-! ## 1. Values -/

mutual

/-- `JSON.parse`. A member replaces one of the same name. -/
def value : Document → Value
  | null => .null
  | bool b => .bool b
  | num text => numberOf text
  | str text => .str text
  | arr items => .arr (itemValues items)
  | obj members => .obj (memberValues [] members)

def itemValues : List Document → List Value
  | [] => []
  | item :: rest => item.value :: itemValues rest

def memberValues (made : Members) : List (Text × Document) → Members
  | [] => made
  | (name, item) :: rest => memberValues (set made name item.value) rest

end

/-! ## 2. Sizes -/

mutual

/-- How many values there are, the document one of them. -/
def values : Document → Nat
  | arr items => 1 + itemsValues items
  | obj members => 1 + membersValues members
  | _ => 1

def itemsValues : List Document → Nat
  | [] => 0
  | item :: rest => item.values + itemsValues rest

def membersValues : List (Text × Document) → Nat
  | [] => 0
  | (_, item) :: rest => item.values + membersValues rest

end

mutual

def depth : Document → Nat
  | arr items => 1 + itemsDepth items
  | obj members => 1 + membersDepth members
  | _ => 0

def itemsDepth : List Document → Nat
  | [] => 0
  | item :: rest => max item.depth (itemsDepth rest)

def membersDepth : List (Text × Document) → Nat
  | [] => 0
  | (_, item) :: rest => max item.depth (membersDepth rest)

end

mutual

def longest : Document → Nat
  | num text => text.length
  | arr items => itemsLongest items
  | obj members => membersLongest members
  | _ => 0

def itemsLongest : List Document → Nat
  | [] => 0
  | item :: rest => max item.longest (itemsLongest rest)

def membersLongest : List (Text × Document) → Nat
  | [] => 0
  | (name, item) :: rest => max (max name.length item.longest) (membersLongest rest)

end

/-! ## 3. Members of one name -/

theorem lookup_snoc {β : Type} (xs : List (Text × β)) (name : Text) (item : β) (q : Text) :
    (xs ++ [(name, item)]).lookup q = (xs.lookup q).or (if q = name then some item else none) := by
  induction xs with
  | nil =>
    show List.lookup q [(name, item)] = _
    rw [List.lookup_cons]
    by_cases hq : q = name
    · rw [if_pos hq, beq_iff_eq.mpr hq]
      rfl
    · rw [if_neg hq, beq_false_of_ne hq]
      rfl
  | cons x xs ih =>
    obtain ⟨key, other⟩ := x
    rw [List.cons_append, List.lookup_cons, List.lookup_cons, ih]
    cases q == key <;> rfl

theorem lookup_memberValues (made : Members) (members : List (Text × Document)) (q : Text) :
    (memberValues made members).lookup q = ((members.reverse.lookup q).map value).or (made.lookup q) := by
  induction members generalizing made with
  | nil => rfl
  | cons m members ih =>
    obtain ⟨name, item⟩ := m
    rw [memberValues, ih, lookup_set, List.reverse_cons, lookup_snoc]
    by_cases hq : q = name
    · rw [if_pos hq, if_pos hq]
      cases members.reverse.lookup q <;> rfl
    · rw [if_neg hq, if_neg hq, Option.or_none]

end Document

/-! ## 4. Tokens -/

mutual

/-- The tokens of a document, its texts in any chunks. -/
inductive Emits : Document → List Token → Prop
  | null : Emits .null [.nullValue]
  | true : Emits (.bool true) [.trueValue]
  | false : Emits (.bool false) [.falseValue]
  | num (chunks : List Text) : Emits (.num chunks.flatten)
    (.startNumber :: chunks.map .numberChunk ++ [.endNumber])
  | str (chunks : List Text) : Emits (.str chunks.flatten)
    (.startString :: chunks.map .stringChunk ++ [.endString])
  | arr {items : List Document} {tokens : List Token} (h : EmitsItems items tokens) :
      Emits (.arr items) (.startArray :: tokens ++ [.endArray])
  | obj {members : List (Text × Document)} {tokens : List Token} (h : EmitsMembers members tokens) :
      Emits (.obj members) (.startObject :: tokens ++ [.endObject])

inductive EmitsItems : List Document → List Token → Prop
  | nil : EmitsItems [] []
  | cons {item : Document} {items : List Document} {tokens rest : List Token} (h : Emits item tokens)
      (hrest : EmitsItems items rest) : EmitsItems (item :: items) (tokens ++ rest)

inductive EmitsMembers : List (Text × Document) → List Token → Prop
  | nil : EmitsMembers [] []
  | cons {item : Document} {members : List (Text × Document)} {tokens rest : List Token} (chunks : List Text)
      (h : Emits item tokens) (hrest : EmitsMembers members rest) :
      EmitsMembers ((chunks.flatten, item) :: members)
        (.startKey :: chunks.map .stringChunk ++ [.endKey] ++ tokens ++ rest)

end

end ClawRouter.Inspect
