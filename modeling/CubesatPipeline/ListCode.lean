import CubesatPipeline.Lib.Program
import Mathlib

/-!
# The kernel's lists, as they are coded

Ready, delayed and waiting tasks are kept in doubly linked lists, threaded through items that
the tasks own. A list is a ring: `xListEnd`, a node of the list itself, closes it, and carries
the highest value there is, so that a scan for a value stops there. `pxIndex` is a place in the
ring, which walks around it.

The memory that the list functions work on is `CubesatPipeline.ListMem`: for each node its
pointers, for each list its index and its count. What a user of the lists can call is
`CubesatPipeline.ListCall`.
-/

namespace CubesatPipeline

/-- `TickType_t`: 32 bits, since `configUSE_16_BIT_TICKS` is `0`. The port, which declares the type,
is not there. -/
abbrev TickType := UInt32

/-- `portMAX_DELAY`. -/
def portMaxDelay : TickType := 0xffffffff

theorem le_portMaxDelay (v : TickType) : v ≤ portMaxDelay := by
  rw [UInt32.le_iff_toNat_le]
  exact Nat.le_of_lt_succ v.toNat_lt

/-! ### The code -/

section Code

/-- A `ListItem_t *`: the end marker of a list, or an item. -/
inductive ItemPtr (ι κ : Type) where
  | xListEnd (pxList : κ)
  | item (pxItem : ι)
  deriving DecidableEq

/-- **The nodes and the lists**, for items `ι`, lists `κ` and owners `ω`. A count of items
cannot run over: each item takes more than one byte of memory. -/
structure ListMem (ι κ ω : Type) where
  xItemValue : ItemPtr ι κ → TickType
  pxNext : ItemPtr ι κ → ItemPtr ι κ
  pxPrevious : ItemPtr ι κ → ItemPtr ι κ
  pvOwner : ι → ω
  pxContainer : ι → Option κ
  uxNumberOfItems : κ → ℕ
  pxIndex : κ → ItemPtr ι κ

namespace ListMem

variable {ι κ ω : Type} [DecidableEq ι] [DecidableEq κ]

/-- Writing a `pxNext`. -/
def setNext (mem : ListMem ι κ ω) (p q : ItemPtr ι κ) : ListMem ι κ ω :=
  { mem with pxNext := Function.update mem.pxNext p q }

/-- Writing a `pxPrevious`. -/
def setPrevious (mem : ListMem ι κ ω) (p q : ItemPtr ι κ) : ListMem ι κ ω :=
  { mem with pxPrevious := Function.update mem.pxPrevious p q }

/-- Writing a `pxContainer`. -/
def setContainer (mem : ListMem ι κ ω) (pxItem : ι) (pxList : Option κ) : ListMem ι κ ω :=
  { mem with pxContainer := Function.update mem.pxContainer pxItem pxList }

/-- Writing a `uxNumberOfItems`. -/
def setNumber (mem : ListMem ι κ ω) (pxList : κ) (n : ℕ) : ListMem ι κ ω :=
  { mem with uxNumberOfItems := Function.update mem.uxNumberOfItems pxList n }

/-- Writing a `pxIndex`. -/
def setIndex (mem : ListMem ι κ ω) (pxList : κ) (p : ItemPtr ι κ) : ListMem ι κ ω :=
  { mem with pxIndex := Function.update mem.pxIndex pxList p }

/-- `listSET_LIST_ITEM_VALUE`, also for the end marker. -/
def setItemValue (mem : ListMem ι κ ω) (p : ItemPtr ι κ) (xValue : TickType) : ListMem ι κ ω :=
  { mem with xItemValue := Function.update mem.xItemValue p xValue }

/-- `listSET_LIST_ITEM_OWNER`. -/
def setOwner (mem : ListMem ι κ ω) (pxItem : ι) (pxOwner : ω) : ListMem ι κ ω :=
  { mem with pvOwner := Function.update mem.pvOwner pxItem pxOwner }

/-- `vListInitialise`. -/
def vListInitialise (mem : ListMem ι κ ω) (pxList : κ) : ListMem ι κ ω :=
  let mem := mem.setIndex pxList (.xListEnd pxList)
  let mem := mem.setItemValue (.xListEnd pxList) portMaxDelay
  let mem := mem.setNext (.xListEnd pxList) (.xListEnd pxList)
  let mem := mem.setPrevious (.xListEnd pxList) (.xListEnd pxList)
  mem.setNumber pxList 0

/-- `vListInitialiseItem`. -/
def vListInitialiseItem (mem : ListMem ι κ ω) (pxItem : ι) : ListMem ι κ ω :=
  mem.setContainer pxItem none

/-- `vListInsertEnd`, and `listINSERT_END`. -/
def vListInsertEnd (mem : ListMem ι κ ω) (pxList : κ) (pxNewListItem : ι) : ListMem ι κ ω :=
  let pxIndex := mem.pxIndex pxList
  let mem := mem.setNext (.item pxNewListItem) pxIndex
  let mem := mem.setPrevious (.item pxNewListItem) (mem.pxPrevious pxIndex)
  let mem := mem.setNext (mem.pxPrevious pxIndex) (.item pxNewListItem)
  let mem := mem.setPrevious pxIndex (.item pxNewListItem)
  let mem := mem.setContainer pxNewListItem (some pxList)
  mem.setNumber pxList (mem.uxNumberOfItems pxList + 1)

/-- The loop of `vListInsert`, which looks for the node to insert behind. It is given a number
of turns, and has no answer when they do not suffice. -/
def scan (mem : ListMem ι κ ω) (xValueOfInsertion : TickType) :
    ℕ → ItemPtr ι κ → Option (ItemPtr ι κ)
  | 0, _ => none
  | turns + 1, pxIterator =>
    if mem.xItemValue (mem.pxNext pxIterator) ≤ xValueOfInsertion then
      mem.scan xValueOfInsertion turns (mem.pxNext pxIterator)
    else some pxIterator

/-- `vListInsert`. The loop is given a turn for every node of the list. -/
def vListInsert (mem : ListMem ι κ ω) (pxList : κ) (pxNewListItem : ι) :
    Option (ListMem ι κ ω) := do
  let xValueOfInsertion := mem.xItemValue (.item pxNewListItem)
  let pxIterator ←
    (if xValueOfInsertion = portMaxDelay then some (mem.pxPrevious (.xListEnd pxList))
    else mem.scan xValueOfInsertion (mem.uxNumberOfItems pxList + 1) (.xListEnd pxList))
  let mem := mem.setNext (.item pxNewListItem) (mem.pxNext pxIterator)
  let mem := mem.setPrevious (mem.pxNext (.item pxNewListItem)) (.item pxNewListItem)
  let mem := mem.setPrevious (.item pxNewListItem) pxIterator
  let mem := mem.setNext pxIterator (.item pxNewListItem)
  let mem := mem.setContainer pxNewListItem (some pxList)
  return mem.setNumber pxList (mem.uxNumberOfItems pxList + 1)

/-- `uxListRemove`, and `listREMOVE_ITEM`. An item in no list has no list to count down. -/
def uxListRemove (mem : ListMem ι κ ω) (pxItemToRemove : ι) : Option (ℕ × ListMem ι κ ω) := do
  let p : ItemPtr ι κ := .item pxItemToRemove
  let pxList ← mem.pxContainer pxItemToRemove
  let mem := mem.setPrevious (mem.pxNext p) (mem.pxPrevious p)
  let mem := mem.setNext (mem.pxPrevious p) (mem.pxNext p)
  let mem := if mem.pxIndex pxList = p then mem.setIndex pxList (mem.pxPrevious p) else mem
  let mem := mem.setContainer pxItemToRemove none
  let mem := mem.setNumber pxList (mem.uxNumberOfItems pxList - 1)
  return (mem.uxNumberOfItems pxList, mem)

/-- The owner behind a pointer. The end marker has none. -/
def owner (mem : ListMem ι κ ω) : ItemPtr ι κ → Option ω
  | .xListEnd _ => none
  | .item pxItem => some (mem.pvOwner pxItem)

/-- `listGET_OWNER_OF_NEXT_ENTRY`. -/
def getOwnerOfNextEntry (mem : ListMem ι κ ω) (pxList : κ) : Option (ω × ListMem ι κ ω) := do
  let mem := mem.setIndex pxList (mem.pxNext (mem.pxIndex pxList))
  let mem :=
    if mem.pxIndex pxList = .xListEnd pxList then
      mem.setIndex pxList (mem.pxNext (.xListEnd pxList))
    else mem
  let pxTCB ← mem.owner (mem.pxIndex pxList)
  return (pxTCB, mem)

/-- `listGET_OWNER_OF_HEAD_ENTRY`. -/
def getOwnerOfHeadEntry (mem : ListMem ι κ ω) (pxList : κ) : Option ω :=
  mem.owner (mem.pxNext (.xListEnd pxList))

/-- `listGET_ITEM_VALUE_OF_HEAD_ENTRY`. -/
def getItemValueOfHeadEntry (mem : ListMem ι κ ω) (pxList : κ) : TickType :=
  mem.xItemValue (mem.pxNext (.xListEnd pxList))

end ListMem

/-! ### The interface -/

/-- **What is done with the lists.** -/
inductive ListCall (ι κ ω : Type) where
  | vListInitialise (pxList : κ)
  | vListInitialiseItem (pxItem : ι)
  | listSetListItemOwner (pxItem : ι) (pxOwner : ω)
  | listSetListItemValue (pxItem : ι) (xValue : TickType)
  | listGetListItemValue (pxItem : ι)
  | listListItemContainer (pxItem : ι)
  | vListInsertEnd (pxList : κ) (pxNewListItem : ι)
  | vListInsert (pxList : κ) (pxNewListItem : ι)
  | uxListRemove (pxItemToRemove : ι)
  | listGetOwnerOfNextEntry (pxList : κ)
  | listGetOwnerOfHeadEntry (pxList : κ)
  | listGetItemValueOfHeadEntry (pxList : κ)
  | listCurrentListLength (pxList : κ)

/-- What comes back. -/
@[reducible] def ListCall.Reply {ι κ ω : Type} : ListCall ι κ ω → Type
  | vListInitialise _ | vListInitialiseItem _ | listSetListItemOwner .. => Unit
  | listSetListItemValue .. | vListInsertEnd .. | vListInsert .. => Unit
  | listGetListItemValue _ | listGetItemValueOfHeadEntry _ => TickType
  | listListItemContainer _ => Option κ
  | uxListRemove _ | listCurrentListLength _ => ℕ
  | listGetOwnerOfNextEntry _ | listGetOwnerOfHeadEntry _ => ω

/-- **The calls, on the memory.** -/
def ListMem.call {ι κ ω : Type} [DecidableEq ι] [DecidableEq κ] :
    (c : ListCall ι κ ω) → ListMem ι κ ω → Option (c.Reply × ListMem ι κ ω)
  | .vListInitialise pxList, mem => some ((), mem.vListInitialise pxList)
  | .vListInitialiseItem pxItem, mem => some ((), mem.vListInitialiseItem pxItem)
  | .listSetListItemOwner pxItem pxOwner, mem => some ((), mem.setOwner pxItem pxOwner)
  | .listSetListItemValue pxItem xValue, mem => some ((), mem.setItemValue (.item pxItem) xValue)
  | .listGetListItemValue pxItem, mem => some (mem.xItemValue (.item pxItem), mem)
  | .listListItemContainer pxItem, mem => some (mem.pxContainer pxItem, mem)
  | .vListInsertEnd pxList pxNewListItem, mem => some ((), mem.vListInsertEnd pxList pxNewListItem)
  | .vListInsert pxList pxNewListItem, mem =>
    (mem.vListInsert pxList pxNewListItem).map fun mem => ((), mem)
  | .uxListRemove pxItemToRemove, mem => mem.uxListRemove pxItemToRemove
  | .listGetOwnerOfNextEntry pxList, mem => mem.getOwnerOfNextEntry pxList
  | .listGetOwnerOfHeadEntry pxList, mem =>
    (mem.getOwnerOfHeadEntry pxList).map fun pxTCB => (pxTCB, mem)
  | .listGetItemValueOfHeadEntry pxList, mem => some (mem.getItemValueOfHeadEntry pxList, mem)
  | .listCurrentListLength pxList, mem => some (mem.uxNumberOfItems pxList, mem)

end Code

end CubesatPipeline
