import Rollup.Configuration.Schema

/-! What lets runs on whole documents be computed: equality of documents can be decided, and the
characters of what is written are put together in a list, so that no long text has to be decoded. -/
namespace Rollup

namespace Document

mutual

def same : Document → Document → Bool
  | .null, .null => true
  | .bool a, .bool b => a == b
  | .int a, .int b => a == b
  | .float a, .float b => decide (a = b)
  | .text a, .text b => a == b
  | .plain a, .plain b => a == b
  | .list as, .list bs => sameItems as bs
  | .map as, .map bs => sameEntries as bs
  | _, _ => false

def sameItems : List Document → List Document → Bool
  | [], [] => true
  | a :: as, b :: bs => same a b && sameItems as bs
  | _, _ => false

def sameEntries : List (String × Document) → List (String × Document) → Bool
  | [], [] => true
  | (key, a) :: as, (key', b) :: bs => key == key' && same a b && sameEntries as bs
  | _, _ => false

end

mutual

theorem same_iff : ∀ a b : Document, same a b ↔ a = b
  | .null, b => by cases b <;> simp [same]
  | .bool _, b => by cases b <;> simp [same]
  | .int _, b => by cases b <;> simp [same]
  | .float _, b => by cases b <;> simp [same]
  | .text _, b => by cases b <;> simp [same]
  | .plain _, b => by cases b <;> simp [same]
  | .list as, b => by cases b <;> simp [same, sameItems_iff as]
  | .map as, b => by cases b <;> simp [same, sameEntries_iff as]

theorem sameItems_iff : ∀ as bs : List Document, sameItems as bs ↔ as = bs
  | [], bs => by cases bs <;> simp [sameItems]
  | a :: as, bs => by cases bs <;> simp [sameItems, same_iff a, sameItems_iff as]

theorem sameEntries_iff : ∀ as bs : List (String × Document), sameEntries as bs ↔ as = bs
  | [], bs => by cases bs <;> simp [sameEntries]
  | (key, a) :: as, bs => by
    cases bs <;> simp [sameEntries, same_iff a, sameEntries_iff as, Prod.ext_iff]

end

instance : DecidableEq Document := fun a b => decidable_of_iff _ (same_iff a b)

end Document

namespace Yaml

mutual

/-- What `writeMap` writes; the others are those of `writeValue`, `writeList` and `writeItem`. -/
def mapChars (column : Nat) : List (String × Document) → List Char
  | [] => []
  | [(key, value)] => (writeKey column key).toList ++ valueChars column value
  | (key, value) :: rest =>
    (writeKey column key).toList ++ valueChars column value ++ (blanks column).toList ++
      mapChars column rest

def valueChars (column : Nat) : Document → List Char
  | .list (item :: items) =>
    '\n' :: (blanks column).toList ++ listChars column (item :: items)
  | .map (entry :: entries) =>
    '\n' :: (blanks (column + 2)).toList ++ mapChars (column + 2) (entry :: entries)
  | d => ' ' :: ((inline? (column + 2) d).getD "").toList ++ ['\n']

def listChars (column : Nat) : List Document → List Char
  | [] => []
  | [item] => '-' :: ' ' :: itemChars column item
  | item :: rest =>
    '-' :: ' ' :: itemChars column item ++ (blanks column).toList ++ listChars column rest

def itemChars (column : Nat) : Document → List Char
  | .list (item :: items) => listChars (column + 2) (item :: items)
  | .map (entry :: entries) => mapChars (column + 2) (entry :: entries)
  | d => ((inline? (column + 2) d).getD "").toList ++ ['\n']

end

mutual

theorem toList_writeMap (column : Nat) : ∀ entries : List (String × Document),
    (writeMap column entries).toList = mapChars column entries
  | [] => by simp [writeMap, mapChars]
  | [(key, value)] => by simp [writeMap, mapChars, toList_writeValue column value]
  | (key, value) :: entry :: rest => by
    simp [writeMap, mapChars, toList_writeValue column value,
      toList_writeMap column (entry :: rest)]

theorem toList_writeValue (column : Nat) : ∀ d : Document,
    (writeValue column d).toList = valueChars column d
  | .list (item :: items) => by
    simp [writeValue, valueChars, toList_writeList column (item :: items)]
  | .map (entry :: entries) => by
    simp [writeValue, valueChars, toList_writeMap (column + 2) (entry :: entries)]
  | .list [] | .map [] | .null | .bool _ | .int _ | .float _ | .text _ | .plain _ => by
    simp [writeValue, valueChars]

theorem toList_writeList (column : Nat) : ∀ items : List Document,
    (writeList column items).toList = listChars column items
  | [] => by simp [writeList, listChars]
  | [item] => by simp [writeList, listChars, toList_writeItem column item]
  | item :: next :: rest => by
    simp [writeList, listChars, toList_writeItem column item,
      toList_writeList column (next :: rest)]

theorem toList_writeItem (column : Nat) : ∀ d : Document,
    (writeItem column d).toList = itemChars column d
  | .list (item :: items) => by
    simp [writeItem, itemChars, toList_writeList (column + 2) (item :: items)]
  | .map (entry :: entries) => by
    simp [writeItem, itemChars, toList_writeMap (column + 2) (entry :: entries)]
  | .list [] | .map [] | .null | .bool _ | .int _ | .float _ | .text _ | .plain _ => by
    simp [writeItem, itemChars]

end

end Yaml

end Rollup
