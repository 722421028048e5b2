import MsysHal.ForStd.Dict
import MsysHal.Python.Mipc

/-!
# Provider preferences and their file

`SelectionStore` of `msys_hal/manager.py`: the preferences are one small JSON
document that is written as a whole and checked entry by entry when read.
-/

namespace MsysHal

open Python (Value Runtime)

/-- The provider preferences, one component for a domain. Every domain and every
    component matches its grammar. -/
structure Selections where
  map : Dict String String
  valid : ∀ item ∈ map.items, matchesDomain item.1 = true ∧ matchesComponent item.2 = true

/-- A preference to set (`some`) or to drop (`none`). A component that is set was
    found in the catalog, with the domain among those it describes. -/
structure Choice where
  domain : String
  component : Option String
  valid : ∀ c, component = some c → matchesDomain domain = true ∧ matchesComponent c = true

namespace Selections

/-- No preferences. -/
def empty : Selections := ⟨Dict.empty, fun _ h => nomatch h⟩

/-- `selections.get(domain)`. -/
def get? (selections : Selections) (domain : String) : Option String :=
  selections.map.get? domain

/-- `selections[domain] = component`. -/
def set (selections : Selections) (domain component : String)
    (hd : matchesDomain domain = true) (hc : matchesComponent component = true) : Selections where
  map := selections.map.set domain component
  valid := by
    intro item hitem
    have hget :=
      (Dict.get?_eq_some_iff (selections.map.set domain component) item.1 item.2).mpr hitem
    rw [Dict.get?_set] at hget
    split at hget
    · next heq =>
      rw [Option.some.injEq] at hget
      exact ⟨heq ▸ hd, hget ▸ hc⟩
    · exact selections.valid item ((Dict.get?_eq_some_iff selections.map item.1 item.2).mp hget)

/-- `selections.pop(domain, None)`. -/
def erase (selections : Selections) (domain : String) : Selections where
  map := selections.map.erase domain
  valid := fun item hitem => selections.valid item (List.mem_of_mem_filter hitem)

/-- The preferences after a choice. -/
def apply (selections : Selections) (choice : Choice) : Selections :=
  match h : choice.component with
  | none => selections.erase choice.domain
  | some c => selections.set choice.domain c (choice.valid c h).1 (choice.valid c h).2

/-- The rollback of `select_provider`: put the old entry back into the changed map. -/
def restore (selections changed : Selections) (domain : String) : Selections :=
  match h : selections.get? domain with
  | none => changed.erase domain
  | some old =>
    have hv := selections.valid (domain, old) ((Dict.get?_eq_some_iff _ _ _).mp h)
    changed.set domain old hv.1 hv.2

end Selections

namespace SelectionStore

/-- `dict(sorted(selections.items()))`. -/
def sortedItems (selections : Selections) : List (String × String) :=
  selections.map.items.insertionSort fun a b => a.1 ≤ b.1

/-- The document `save` writes. -/
def document (selections : Selections) : Value :=
  .object [("schema", .str "msys.hal.selection.v1"),
    ("selections", .object ((sortedItems selections).map fun item => (item.1, .str item.2)))]

/-- The bytes `save` writes, or the error of its bounds check. -/
def encode (selections : Selections) : Except HalError ByteArray := do
  ensureBoundedJson (document selections) "HAL provider selection"
  return (String.ofList ((document selections).text ++ ['\n'])).toUTF8

/-- The loop of `load` over the entries of the document. -/
def loadEntries : List (Value × Value) → Selections → Selections
  | [], result => result
  | (.str d, .str c) :: rest, result =>
    if h : matchesDomain d = true ∧ matchesComponent c = true then
      loadEntries rest (result.set d c h.1 h.2)
    else loadEntries rest result
  | _ :: rest, result => loadEntries rest result

/-- The checks `load` makes on the decoded document. -/
def loadDocument (value : Value) : Selections :=
  match value.get? "schema" with
  | some (.str "msys.hal.selection.v1") =>
    match value.get? "selections" with
    | some (.dict members) => if members.length > 64 then .empty else loadEntries members .empty
    | _ => .empty
  | _ => .empty

/-- `load` of a file, `none` when it cannot be read. Only a decode error counts
    as a damaged file; the other exceptions of `json.loads` are passed on. -/
def load (rt : Runtime) : Option ByteArray → Except PyError Selections
  | none => .ok .empty
  | some data =>
    -- A file that is too large counts as an empty one.
    if data.size > 64 * 1024 then .ok .empty
    else match String.fromUTF8? data with
      | none => .ok .empty
      | some text =>
        match Python.loads rt text.toList with
        | .ok value => .ok (loadDocument value)
        | .error .decodeError => .ok .empty
        | .error e => .error (loadsException e)

end SelectionStore

end MsysHal
