import TextColumns.Category.Basic
import TextColumns.Matching.Replacement
import TextColumns.Measure.Occurrence
import TextColumns.Pieces.Split
import TextColumns.Regex.Registry
import TextColumns.Transform.Case
import TextColumns.Transform.Join
import TextColumns.Transform.Pad
import TextColumns.Transform.Replace

/-!
Operations on stores as values.  An operation that needs a pattern names it by its handle in a
registry; the outcome is a store, a column or a table, each under its kind.
-/

namespace TextColumns

open Transform (CaseMode CharTable PadPolicy Side)

inductive Operation where
  | convertCase (mode : CaseMode)
  | trim (side : Side) (set : Option String)
  | pad (width : Nat) (side : Side) (fill : String) (policy : PadPolicy)
  | zeroFill (width : Nat)
  | replace (target replacement : String) (limit : Option Nat)
  | substring (start : Nat) (length : Option Nat)
  | repeatTexts (times : Nat)
  | mapChars (table : CharTable)
  | joinRows (right : Store) (separator : String)
  | joinAll (separator : String)
  | split (separator : Option String) (limit : Option Nat)
  | splitFromRight (separator : Option String) (limit : Option Nat)
  | splitColumns (separator : Option String) (limit : Option Nat)
  | find (needle : String)
  | findLast (needle : String)
  | count (needle : String)
  | contains (needle : String)
  | startsWith (needle : String)
  | endsWith (needle : String)
  | charLength
  | byteLength
  | isKind (kind : Measure.Kind)
  | integers
  | integersInRadix (radix : Nat)
  | floats
  | hash
  | compareText (comparison : Comparison) (text : String)
  | compareRows (comparison : Comparison) (right : Store)
  | isIn (set : Store)
  | sortedRows (order : SortOrder)
  | sorted (order : SortOrder)
  | containsMatch (handle : Nat)
  | matchesStart (handle : Nat)
  | findMatch (handle : Nat)
  | countMatches (handle : Nat)
  | extract (handle : Nat)
  | findAll (handle : Nat)
  | replaceMatches (handle : Nat) (replacement : String) (limit : Option Nat)
  | replaceByTemplate (handle : Nat) (template : String) (limit : Option Nat)
  | splitAtMatches (handle : Nat) (limit : Option Nat)
  | splitColumnsAtMatches (handle : Nat) (limit : Option Nat)
  | encode

def Operation.name : Operation → String
  | .convertCase .. => "case"
  | .trim .. => "strip"
  | .pad .. => "pad"
  | .zeroFill .. => "zfill"
  | .replace .. => "replace"
  | .substring .. => "substring"
  | .repeatTexts .. => "repeat"
  | .mapChars .. => "translate"
  | .joinRows .. => "concat"
  | .joinAll .. => "join"
  | .split .. => "split"
  | .splitFromRight .. => "rsplit"
  | .splitColumns .. => "split_columns"
  | .find .. => "find"
  | .findLast .. => "rfind"
  | .count .. => "count"
  | .contains .. => "contains"
  | .startsWith .. => "starts_with"
  | .endsWith .. => "ends_with"
  | .charLength => "char_len"
  | .byteLength => "byte_len"
  | .isKind .. => "classify"
  | .integers => "parse_int"
  | .integersInRadix .. => "parse_int_radix"
  | .floats => "parse_float"
  | .hash => "hash"
  | .compareText .. => "compare"
  | .compareRows .. => "compare_stores"
  | .isIn .. => "is_in"
  | .sortedRows .. => "argsort"
  | .sorted .. => "sort"
  | .containsMatch .. => "contains_re"
  | .matchesStart .. => "match_re"
  | .findMatch .. => "find_re"
  | .countMatches .. => "count_re"
  | .extract .. => "extract"
  | .findAll .. => "findall"
  | .replaceMatches .. => "replace_re"
  | .replaceByTemplate .. => "replace_with_backrefs"
  | .splitAtMatches .. => "split_re"
  | .splitColumnsAtMatches .. => "split_re_columns"
  | .encode => "encode"

inductive Outcome where
  | store (store : Store)
  | stores (stores : List Store)
  | answers (column : Column Bool)
  /-- Positions, counts and sizes. -/
  | counts (column : Column Int)
  | integers (column : Column Int)
  | hashes (column : Column UInt64)
  /-- Words of double precision numbers. -/
  | floats (column : Column Nat)
  | list (column : ListColumn)
  | found (column : Matching.FoundColumn)
  | category (table : CategoryTable)
  | rows (rows : List Nat)

def Outcome.kind : Outcome → String
  | .store _ => "store"
  | .stores _ => "stores"
  | .answers _ => "boolean"
  | .counts _ => "int32"
  | .integers _ => "int64"
  | .hashes _ => "uint64"
  | .floats _ => "float64"
  | .list _ => "list"
  | .found _ => "matches"
  | .category _ => "category"
  | .rows _ => "indices"

namespace Operation

def withPattern (registry : Registry) (handle : Nat) (run : Regex → Result α) : Result α :=
  match registry.get handle with
  | .error e => .error e
  | .ok regex => run regex

/-- Performs an operation on a store, with the patterns of a registry.  Hashes are those that `hash`
gives for the bytes of an element. -/
def apply (hash : ByteArray → UInt64) (store : Store) (registry : Registry) :
    Operation → Result Outcome
  | .convertCase mode => (Transform.convertCase store mode).map .store
  | .trim side set => .ok (.store (Transform.trim store side set))
  | .pad width side fill policy => (Transform.pad store width side fill policy).map .store
  | .zeroFill width => (Transform.zeroFill store width).map .store
  | .replace target replacement limit =>
    (Transform.replace store target replacement limit).map .store
  | .substring start length => .ok (.store (Transform.substring store start length))
  | .repeatTexts times => (Transform.repeatTexts store times).map .store
  | .mapChars table => (Transform.mapChars store table).map .store
  | .joinRows right separator => (Transform.joinRows store right separator).map .store
  | .joinAll separator => (Transform.joinAll store separator).map .store
  | .split separator limit => (ListColumn.split store separator limit).map .list
  | .splitFromRight separator limit =>
    (ListColumn.splitFromRight store separator limit).map .list
  | .splitColumns separator limit =>
    (ListColumn.split store separator limit).map fun column => .stores column.transpose
  | .find needle => .ok (.counts (Measure.find store needle))
  | .findLast needle => .ok (.counts (Measure.findLast store needle))
  | .count needle => .ok (.counts (Measure.count store needle))
  | .contains needle => .ok (.answers (Measure.contains store needle))
  | .startsWith needle => .ok (.answers (Measure.startsWith store needle))
  | .endsWith needle => .ok (.answers (Measure.endsWith store needle))
  | .charLength => .ok (.counts (Measure.charLength store))
  | .byteLength => .ok (.counts (Measure.byteLength store))
  | .isKind kind => .ok (.answers (Measure.isKind store kind))
  | .integers => .ok (.integers (Measure.integers store .int64))
  | .integersInRadix radix => (Measure.integersInRadix store .int64 radix).map .integers
  | .floats => .ok (.floats (Measure.floats store .double))
  | .hash => .ok (.hashes (Measure.hashes hash store))
  | .compareText comparison text => .ok (.answers (TextColumns.compareText store comparison text))
  | .compareRows comparison right =>
    (TextColumns.compareRows store right comparison).map .answers
  | .isIn set => .ok (.answers (TextColumns.isIn store set))
  | .sortedRows order => .ok (.rows (TextColumns.sortedRows store order))
  | .sorted order => (TextColumns.sorted store order).map .store
  | .containsMatch handle =>
    withPattern registry handle fun regex => .ok (.answers (Matching.contains store regex))
  | .matchesStart handle =>
    withPattern registry handle fun regex => .ok (.answers (Matching.matchesStart store regex))
  | .findMatch handle =>
    withPattern registry handle fun regex => .ok (.found (Matching.find store regex))
  | .countMatches handle =>
    withPattern registry handle fun regex => .ok (.counts (Matching.count store regex))
  | .extract handle =>
    withPattern registry handle fun regex => (Matching.extract store regex).map .stores
  | .findAll handle =>
    withPattern registry handle fun regex => (Matching.findAll store regex).map .list
  | .replaceMatches handle replacement limit =>
    withPattern registry handle fun regex =>
      (Matching.replace store regex replacement limit).map .store
  | .replaceByTemplate handle template limit =>
    withPattern registry handle fun regex =>
      (Matching.replaceByTemplate store regex template limit).map .store
  | .splitAtMatches handle limit =>
    withPattern registry handle fun regex => (Matching.split store regex limit).map .list
  | .splitColumnsAtMatches handle limit =>
    withPattern registry handle fun regex =>
      (Matching.split store regex limit).map fun column => .stores column.transpose
  | .encode => (CategoryTable.ofStore store).map .category

end Operation

end TextColumns
