import ContextPack.Change
import ContextPack.Pack.Record
import ContextPack.Symbols.Basic

/-!
# Changes and symbol facts as records

Reading changes and symbol facts that are handed in as data.
-/

namespace ContextPack

variable {α : Type} [Scalar α]

def ChangeStatus.ofName? : String → Option ChangeStatus
  | "added" => some .added
  | "modified" => some .modified
  | "deleted" => some .deleted
  | "renamed" => some .renamed
  | _ => none

def ChangeStatus.name : ChangeStatus → String
  | .added => "added"
  | .modified => "modified"
  | .deleted => "deleted"
  | .renamed => "renamed"

def Datum.lineNumber? (value : Datum α) : Option Nat :=
  match value.natural? with
  | some n => if n < lineModulus then some n else none
  | none => none

def LineRange.ofDatum? (value : Datum α) : Option LineRange := do
  let fields ← RecordDialect.json.fields?
      ["start", "count"] value
  let start ← requiredField fields "start" Datum.lineNumber?
  let count ← requiredField fields "count" Datum.lineNumber?
  return { start, count }

def Hunk.ofDatum? (value : Datum α) : Option Hunk := do
  let fields ← RecordDialect.json.fields?
      ["old", "new", "text"] value
  let old ← requiredField fields "old" LineRange.ofDatum?
  let new ← requiredField fields "new" LineRange.ofDatum?
  let text ← requiredField fields "text" Datum.text?
  return { old, new, text }

def FileChange.ofDatum? (value : Datum α) : Option FileChange := do
  let fields ← RecordDialect.json.fields?
      ["path", "old_path", "status", "binary", "hunks"] value
  let path ← requiredField fields "path" Datum.text?
  let oldPath ← fieldOr fields "old_path" Datum.optionalText? none
  let statusName ← requiredField fields "status" Datum.text?
  let status ← ChangeStatus.ofName? statusName
  let binary ← requiredField fields "binary" Datum.boolean?
  let items ← requiredField fields "hunks" Datum.items?
  let hunks ← items.mapM Hunk.ofDatum?
  return { path, oldPath, status, binary, hunks }

/-- Imports and exports; null means that there are none. -/
def ModuleFacts.ofDatum? (value : Datum α) : Option (Option ModuleFacts) :=
  match value with
  | .null => some none
  | value => do
    let fields ← RecordDialect.json.fields?
        ["imports", "exports"] value
    let imports ← requiredField fields "imports" Datum.texts?
    let exports ← requiredField fields "exports" Datum.texts?
    return some { imports, exports }

/-- Symbol facts in normal form. -/
def SymbolFacts.ofDatum? (value : Datum α) : Option SymbolFacts := do
  let fields ← RecordDialect.json.fields?
      ["defines", "references", "calls", "type_refs", "module"] value
  let defines ← requiredField fields "defines" Datum.texts?
  let references ← requiredField fields "references" Datum.texts?
  let calls ← requiredField fields "calls" Datum.texts?
  let types ← requiredField fields "type_refs" Datum.texts?
  let module ← fieldOr fields "module" ModuleFacts.ofDatum? none
  return SymbolFacts.normalize { defines, references, calls, types, module }

end ContextPack
