import TextColumns.Category.Basic

/-!
Changing the keys of category tables.  The rows keep their texts; a row whose text is no longer a
key becomes missing.
-/

namespace TextColumns.CategoryTable

def gather (table : CategoryTable) (indices : List Nat) : Result CategoryTable :=
  match indices.find? fun index => table.size ≤ index with
  | some index => .error (.tableGatherOutside index table.size)
  | none =>
    .ok ⟨table.keys,
      (indices.map fun index => table.codes[index]?.getD missing).toArray⟩

def keyMap (keys newKeys : Store) : Array Int32 :=
  keys.texts.map fun key =>
    match key.bind (indexOf? newKeys) with
    | some k => Int32.ofNat k
    | none => missing

def recode (table : CategoryTable) (newKeys : Store) : Array Int32 :=
  let map := keyMap table.keys newKeys
  table.codes.map fun code =>
    if code = missing then missing else map[code.toNatClampNeg]?.getD missing

def withKeys (table : CategoryTable) (newKeys : Store) : CategoryTable :=
  ⟨newKeys, table.recode newKeys⟩

def distinctTexts (stores : List Store) : Result Store :=
  match Store.concat stores with
  | .error e => .error e
  | .ok all =>
    match ofStore all with
    | .error e => .error e
    | .ok table => .ok table.keys

def addKeys (table : CategoryTable) (new : Store) : Result CategoryTable :=
  match distinctTexts [table.keys, new] with
  | .error e => .error e
  | .ok keys => .ok (table.withKeys keys)

/-- The table with only the keys at the given places. -/
def keepKeys (table : CategoryTable) (places : List Nat) : Result CategoryTable :=
  match table.keys.gather places with
  | .error e => .error e
  | .ok keys => .ok (table.withKeys keys)

def removeKeys (table : CategoryTable) (removed : Store) : Result CategoryTable :=
  let dropped := removed.members
  table.keepKeys <| (List.range table.keyCount).filter fun k =>
    !dropped.contains ((table.keys.text? k).getD "")

def removeUnusedKeys (table : CategoryTable) : Result CategoryTable :=
  let used := table.codes.foldl
    (fun used code => if code = missing then used else used.setIfInBounds code.toNatClampNeg true)
    (Array.replicate table.keyCount false)
  let places := (List.range table.keyCount).filter fun k => used[k]? == some true
  if places.length = table.keyCount then .ok table else table.keepKeys places

def setKeys (table : CategoryTable) (keys : Store) : Result CategoryTable :=
  match distinctTexts [keys] with
  | .error e => .error e
  | .ok keys => .ok (table.withKeys keys)

def merge (table other : CategoryTable) : Result CategoryTable :=
  match distinctTexts [table.keys, other.keys] with
  | .error e => .error e
  | .ok keys => .ok ⟨keys, table.recode keys ++ other.recode keys⟩

end TextColumns.CategoryTable
