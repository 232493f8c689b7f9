import TextColumns.Category.Keys
import TextColumns.Operation

/-!
Named stores and tables with one registry of patterns.  A store whose buffer is new gets the next
label when it is kept, so stores share a label exactly when they share a buffer.
-/

namespace TextColumns

structure Workspace where
  stores : List (String × Store)
  tables : List (String × CategoryTable)
  registry : Registry
  /-- The label for the next new buffer. -/
  nextLabel : Nat

namespace Workspace

def empty : Workspace :=
  ⟨[], [], .empty, 0⟩

def store? (workspace : Workspace) (name : String) : Option Store :=
  workspace.stores.lookup name

def table? (workspace : Workspace) (name : String) : Option CategoryTable :=
  workspace.tables.lookup name

def keepStore (workspace : Workspace) (name : String) (store : Store) : Workspace :=
  match store.buffer.label with
  | some _ => { workspace with stores := (name, store) :: workspace.stores }
  | none =>
    let buffer := { store.buffer with label := some workspace.nextLabel }
    { workspace with
      stores := (name, { store with buffer }) :: workspace.stores
      nextLabel := workspace.nextLabel + 1 }

def keepTable (workspace : Workspace) (name : String) (table : CategoryTable) : Workspace :=
  { workspace with tables := (name, table) :: workspace.tables }

def keepStores (workspace : Workspace) (name : String) (stores : List Store) : Workspace :=
  stores.zipIdx.foldl
    (fun workspace (store, k) => workspace.keepStore (name ++ "." ++ toString k) store) workspace

/-- Keeps the stores or the table of an outcome; other outcomes are not kept. -/
def keepOutcome (workspace : Workspace) (name : String) : Outcome → Workspace
  | .store store => workspace.keepStore name store
  | .stores stores => workspace.keepStores name stores
  | .list column => workspace.keepStore name column.values
  | .category table => workspace.keepTable name table
  | _ => workspace

end Workspace

end TextColumns
