import CubesatPipeline.Lib.LinkedRing
import CubesatPipeline.Rota

/-!
# The memory of the lists holds lists

`CubesatPipeline.ListMem.Holds` connects the memory that the list functions work on with the
lists that they are for, and each function keeps it (`CubesatPipeline.ListMem.Holds.call`): it
links an item in between two neighbours, or links one out, and no node outside the list is
touched. So whatever is done with these lists can be looked at as done with plain lists
(`CubesatPipeline.listMem_run`).
-/

namespace CubesatPipeline

open LinkedRing

/-! ### The memory holds the lists -/

section Holds

variable {ι κ ω : Type}

/-- **The ring of a list.** -/
structure ListMem.HoldsList (mem : ListMem ι κ ω) (k : κ) (r : Rota ι) : Prop where
  ring : Linked mem.pxNext mem.pxPrevious (.xListEnd k) (r.items.map .item) (.xListEnd k)
  number : mem.uxNumberOfItems k = r.items.length
  endValue : mem.xItemValue (.xListEnd k) = portMaxDelay
  index : mem.pxIndex k = r.place k

/-- **The memory holds the lists.** -/
structure ListMem.Holds (mem : ListMem ι κ ω) (lists : Lists ι κ ω) : Prop where
  value : ∀ i, mem.xItemValue (.item i) = lists.value i
  owner : ∀ i, mem.pvOwner i = lists.owner i
  container : ∀ i c, lists.container i = some c → mem.pxContainer i = c
  list : ∀ k r, lists.rota k = some r → mem.HoldsList k r
  wf : lists.WF

namespace ListMem

variable {mem mem' : ListMem ι κ ω} {lists : Lists ι κ ω} {i x : ι} {k k' : κ} {r r' : Rota ι}

/-- The nodes of a list. -/
def nodes (k : κ) (l : List ι) : List (ItemPtr ι κ) := .xListEnd k :: l.map .item

theorem mem_nodes {p : ItemPtr ι κ} {l : List ι} :
    p ∈ nodes k l ↔ p = .xListEnd k ∨ ∃ i ∈ l, p = .item i := by
  simp [nodes, eq_comm]

theorem item_mem_nodes {l : List ι} : ItemPtr.item i ∈ nodes k l ↔ i ∈ l := by
  simp [nodes]

theorem nodup_nodes {l : List ι} (h : l.Nodup) : (nodes k l).Nodup :=
  List.nodup_cons.mpr ⟨by simp, h.map fun _ _ => ItemPtr.item.inj⟩

/-- Different lists have no node in common. -/
theorem Holds.disjoint (h : mem.Holds lists) (hr : lists.rota k = some r)
    (hr' : lists.rota k' = some r') (hk : k' ≠ k) {p p' : ItemPtr ι κ}
    (hp : p ∈ nodes k r.items) (hp' : p' ∈ nodes k' r'.items) : p' ≠ p := by
  rintro rfl
  rcases mem_nodes.mp hp with rfl | ⟨i, hi, rfl⟩
  · rcases mem_nodes.mp hp' with heq | ⟨j, -, heq⟩
    · exact hk (ItemPtr.xListEnd.inj heq).symm
    · cases heq
  · have hi' := item_mem_nodes.mp hp'
    rw [← Lists.items_eq hr] at hi
    rw [← Lists.items_eq hr'] at hi'
    exact hk (h.wf.list_unique hi' hi)

/-- A list does not notice what is written elsewhere. -/
theorem HoldsList.congr (h : mem.HoldsList k r)
    (hnext : ∀ p ∈ nodes k r.items, mem'.pxNext p = mem.pxNext p)
    (hprev : ∀ p ∈ nodes k r.items, mem'.pxPrevious p = mem.pxPrevious p)
    (hnumber : mem'.uxNumberOfItems k = mem.uxNumberOfItems k)
    (hvalue : mem'.xItemValue (.xListEnd k) = mem.xItemValue (.xListEnd k))
    (hindex : mem'.pxIndex k = mem.pxIndex k) : mem'.HoldsList k r := by
  refine ⟨h.ring.congr hnext fun p hp => hprev p ?_, hnumber.trans h.number,
    hvalue.trans h.endValue, hindex.trans h.index⟩
  rw [nodes]
  exact (List.perm_append_singleton _ _).mem_iff.mp hp

/-- The neighbours at a place of a list. -/
theorem HoldsList.between (h : mem.HoldsList k r) {l m : List ι} (hitems : r.items = l ++ m) :
    mem.pxNext ((nodes k l).getLast (List.cons_ne_nil _ _)) =
        (m.map ItemPtr.item ++ [ItemPtr.xListEnd k]).head (by simp) ∧
      mem.pxPrevious ((m.map ItemPtr.item ++ [ItemPtr.xListEnd k]).head (by simp)) =
        (nodes k l).getLast (List.cons_ne_nil _ _) := by
  have hring := h.ring
  rw [hitems, List.map_append] at hring
  exact hring.between

/-- The neighbours of an item. -/
theorem HoldsList.neighbours (h : mem.HoldsList k r) {l m : List ι}
    (hitems : r.items = l ++ x :: m) :
    mem.pxPrevious (.item x) = (nodes k l).getLast (List.cons_ne_nil _ _) ∧
      mem.pxNext (.item x) = (m.map ItemPtr.item ++ [ItemPtr.xListEnd k]).head (by simp) := by
  have hsplit : r.items = (l ++ [x]) ++ m := by rw [hitems, List.append_assoc]; rfl
  have hbehind := (h.between hsplit).1
  have hlast : (nodes k (l ++ [x])).getLast (List.cons_ne_nil _ _) = .item x := by
    simp [nodes]
  rw [hlast] at hbehind
  exact ⟨(h.between hitems).2, hbehind⟩

theorem getLast_mem_nodes {items l m : List ι} (hitems : items = l ++ m) :
    (nodes k l).getLast (List.cons_ne_nil _ _) ∈ nodes k items := by
  rw [hitems, nodes, List.map_append, ← List.cons_append]
  exact List.mem_append_left _ (List.getLast_mem _)

theorem head_mem_nodes {items l m : List ι} (hitems : items = l ++ m) :
    (m.map ItemPtr.item ++ [ItemPtr.xListEnd k]).head (by simp) ∈ nodes k items := by
  subst hitems
  have hmem := List.head_mem (l := m.map ItemPtr.item ++ [ItemPtr.xListEnd k]) (by simp)
  rw [mem_nodes]
  rcases List.mem_append.mp hmem with hmem | hmem
  · obtain ⟨i, hi, heq⟩ := List.mem_map.mp hmem
    exact .inr ⟨i, List.mem_append_right _ hi, heq.symm⟩
  · exact .inl (List.mem_singleton.mp hmem)

/-- The loop of `vListInsert` stops behind the last of the first items that have no higher
value. -/
theorem scan_eq {v : TickType} {e : ItemPtr ι κ} (he : v < mem.xItemValue e) {l : List ι}
    {a : ItemPtr ι κ} {turns : ℕ} (h : Linked mem.pxNext mem.pxPrevious a (l.map .item) e)
    (hturns : l.length < turns) : mem.scan v turns a =
      some ((a :: (l.takeWhile fun i => mem.xItemValue (.item i) ≤ v).map .item).getLast
        (List.cons_ne_nil _ _)) := by
  induction l generalizing a turns with
  | nil =>
    obtain ⟨turns, rfl⟩ := Nat.exists_eq_add_of_lt hturns
    obtain ⟨hnext, -⟩ := h
    rw [ListMem.scan, hnext, if_neg (UInt32.not_le.mpr he)]
    rfl
  | cons i l ih =>
    obtain ⟨turns, rfl⟩ : ∃ t, turns = t + 1 := ⟨turns - 1, by omega⟩
    obtain ⟨hnext, -, hrest⟩ := h
    rw [ListMem.scan, hnext]
    by_cases hi : mem.xItemValue (.item i) ≤ v
    · rw [if_pos hi, ih hrest (by simpa using hturns), List.takeWhile_cons_of_pos (by simpa),
        List.map_cons, List.getLast_cons (List.cons_ne_nil _ _)]
    · rw [if_neg hi, List.takeWhile_cons_of_neg (by simpa using hi)]
      rfl

/-- The node that `vListInsert` inserts behind. -/
theorem HoldsList.iterator (h : mem.HoldsList k r) (v : TickType) :
    (if v = portMaxDelay then some (mem.pxPrevious (.xListEnd k))
      else mem.scan v (mem.uxNumberOfItems k + 1) (.xListEnd k)) =
    some ((nodes k (r.items.takeWhile fun i => mem.xItemValue (.item i) ≤ v)).getLast
      (List.cons_ne_nil _ _)) := by
  split
  next hv =>
    have hall : (r.items.takeWhile fun i => mem.xItemValue (.item i) ≤ v) = r.items :=
      List.takeWhile_eq_self_iff.mpr fun i _ => by simpa [hv] using le_portMaxDelay _
    rw [hall, h.ring.prev_eq]
    rfl
  next hv =>
    refine scan_eq ?_ h.ring (by rw [h.number]; exact Nat.lt_succ_self _)
    rw [h.endValue]
    exact UInt32.lt_of_le_of_ne (le_portMaxDelay v) hv

/-- Any memory holds lists of which nothing is used yet. -/
theorem holds_start : mem.Holds (Lists.start (fun i => mem.xItemValue (.item i)) mem.pvOwner) where
  value _ := rfl
  owner _ := rfl
  container _ _ h := by cases h
  list _ _ h := by cases h
  wf := ⟨fun _ _ => ⟨fun h => (by cases h), fun h => (by cases h)⟩, fun _ => .nil⟩

/-- The owner of the head of a list. -/
theorem Holds.getOwnerOfHeadEntry (h : mem.Holds lists) {x : ι}
    (hx : (lists.items k).head? = some x) : mem.getOwnerOfHeadEntry k = some (lists.owner x) := by
  obtain ⟨m, hm⟩ := List.head?_eq_some_iff.mp hx
  cases hr : lists.rota k with
  | none =>
    rw [Lists.items, hr] at hm
    cases hm
  | some r =>
    rw [Lists.items_eq hr] at hm
    have hnext := ((h.list k r hr).between (l := []) (m := r.items) rfl).1
    have hhead : mem.pxNext (.xListEnd k) = .item x := hnext.trans (by simp [hm])
    rw [ListMem.getOwnerOfHeadEntry, hhead, ListMem.owner, h.owner]

/-- The value at the head of a list, which is that of the end marker if the list is empty. -/
theorem Holds.getItemValueOfHeadEntry (h : mem.Holds lists) (hr : lists.rota k = some r) :
    mem.getItemValueOfHeadEntry k = r.items.head?.elim portMaxDelay lists.value := by
  have hlist := h.list k r hr
  have hnext : mem.pxNext (.xListEnd k) =
      (r.items.map ItemPtr.item ++ [ItemPtr.xListEnd k]).head (by simp) :=
    (hlist.between (l := []) (m := r.items) rfl).1
  rw [ListMem.getItemValueOfHeadEntry, hnext]
  cases r.items with
  | nil => exact hlist.endValue
  | cons x m => exact h.value x

section Register

variable [DecidableEq ι]

/-- `vListInitialiseItem`. -/
theorem Holds.vListInitialiseItem (h : mem.Holds lists) (hx : (lists.container x).join = none) :
    (mem.vListInitialiseItem x).Holds (lists.register x) := by
  have hno : ∀ k, x ∉ lists.items k := fun k hmem => by
    rw [(h.wf.container_iff x k).mpr hmem] at hx
    cases hx
  refine ⟨h.value, h.owner, fun i c hi => ?_, fun k r hr => ?_, fun i k => ?_, h.wf.nodup⟩
  · rw [Lists.container_register] at hi
    dsimp only [ListMem.vListInitialiseItem, setContainer]
    rw [Function.update_apply]
    split at hi
    next hix => rw [if_pos hix, Option.some.inj hi]
    next hix =>
      rw [if_neg hix]
      exact h.container i c hi
  · exact (h.list k r hr).congr (fun _ _ => rfl) (fun _ _ => rfl) rfl rfl rfl
  · rw [Lists.container_register]
    split
    next hix =>
      subst hix
      exact ⟨fun heq => (by cases heq), fun hmem => absurd hmem (hno k)⟩
    next hix => exact h.wf.container_iff i k

end Register

variable [DecidableEq κ]

/-- The place of a list can be moved. -/
theorem Holds.setIndex (h : mem.Holds lists) (hr : lists.rota k = some r) (r' : Rota ι)
    (hitems : r'.items = r.items) : (mem.setIndex k (r'.place k)).Holds (lists.turn k r') := by
  refine ⟨h.value, h.owner, h.container, fun k' r'' hr'' => ?_, h.wf.turn ?_⟩
  · rw [Lists.rota_turn] at hr''
    split at hr''
    next hk =>
      subst hk
      obtain rfl := Option.some.inj hr''
      have hlist := h.list k' r hr
      exact ⟨hitems ▸ hlist.ring, hitems ▸ hlist.number, hlist.endValue, Function.update_self ..⟩
    next hk =>
      exact (h.list k' r'' hr'').congr (fun _ _ => rfl) (fun _ _ => rfl) rfl rfl
        (Function.update_of_ne hk ..)
  · rw [hitems, Lists.items_eq hr]

variable [DecidableEq ι]

/-- An item linked in between two nodes. -/
def linkIn (mem : ListMem ι κ ω) (k : κ) (x : ι) (c d : ItemPtr ι κ) : ListMem ι κ ω :=
  { mem with
    pxNext := Function.update (Function.update mem.pxNext (.item x) d) c (.item x)
    pxPrevious := Function.update (Function.update mem.pxPrevious (.item x) c) d (.item x)
    pxContainer := Function.update mem.pxContainer x (some k)
    uxNumberOfItems := Function.update mem.uxNumberOfItems k (mem.uxNumberOfItems k + 1) }

/-- **Linking an item in.** -/
theorem Holds.linkIn (h : mem.Holds lists) (hr : lists.rota k = some r)
    (hx : lists.container x = some none) {l m : List ι} (hitems : r.items = l ++ m)
    (hitems' : r'.items = l ++ x :: m) (hplace : r'.place k = r.place k) {c d : ItemPtr ι κ}
    (hc : (nodes k l).getLast (List.cons_ne_nil _ _) = c)
    (hd : (m.map ItemPtr.item ++ [ItemPtr.xListEnd k]).head (by simp) = d) :
    (mem.linkIn k x c d).Holds (lists.enter x k r') := by
  have hlist := h.list k r hr
  have hno : ∀ k, x ∉ lists.items k := fun k hmem => by
    cases hx.symm.trans ((h.wf.container_iff x k).mpr hmem)
  have hxr : x ∉ r.items := Lists.items_eq hr ▸ hno k
  have hnodup : r.items.Nodup := Lists.items_eq hr ▸ h.wf.nodup k
  have hcmem : c ∈ nodes k r.items := by
    rw [← hc]
    exact getLast_mem_nodes hitems
  have hdmem : d ∈ nodes k r.items := by
    rw [← hd]
    exact head_mem_nodes hitems
  have hnext : mem.pxNext c = d := by
    rw [← hc, ← hd]
    exact (hlist.between hitems).1
  refine ⟨h.value, h.owner, fun i c hi => ?_, fun k' r'' hr'' => ?_, h.wf.enter hx ?_⟩
  · rw [Lists.container_enter] at hi
    dsimp only [ListMem.linkIn]
    rw [Function.update_apply]
    split at hi
    next hix => rw [if_pos hix, Option.some.inj hi]
    next hix =>
      rw [if_neg hix]
      exact h.container i c hi
  · rw [Lists.rota_enter] at hr''
    split at hr''
    next hk =>
      subst hk
      obtain rfl := Option.some.inj hr''
      refine ⟨?_, ?_, hlist.endValue, hlist.index.trans hplace.symm⟩
      · have hring := hlist.ring
        rw [hitems, List.map_append] at hring
        rw [hitems', List.map_append, List.map_cons]
        refine hring.insert ?_ ?_ hc hnext
        · rw [← List.map_append, ← hitems]
          exact nodup_nodes hnodup
        · rw [← List.map_append, ← hitems]
          exact fun hmem => hxr (item_mem_nodes.mp hmem)
      · dsimp only [ListMem.linkIn]
        rw [Function.update_self, hlist.number, hitems, hitems']
        simp [Nat.add_assoc]
    next hk =>
      have hxo : ∀ p ∈ nodes k' r''.items, p ≠ .item x := by
        rintro p hp rfl
        exact hno k' (Lists.items_eq hr'' ▸ item_mem_nodes.mp hp)
      refine (h.list k' r'' hr'').congr ?_ ?_ (Function.update_of_ne hk ..) rfl rfl
      · intro p hp
        dsimp only [ListMem.linkIn]
        rw [Function.update_of_ne (h.disjoint hr hr'' hk hcmem hp),
          Function.update_of_ne (hxo p hp)]
      · intro p hp
        dsimp only [ListMem.linkIn]
        rw [Function.update_of_ne (h.disjoint hr hr'' hk hdmem hp),
          Function.update_of_ne (hxo p hp)]
  · rw [hitems', Lists.items_eq hr, hitems]
    exact List.perm_middle

/-- An item linked out from between its neighbours. -/
def linkOut (mem : ListMem ι κ ω) (k : κ) (x : ι) : ListMem ι κ ω :=
  { mem with
    pxNext := Function.update mem.pxNext (mem.pxPrevious (.item x)) (mem.pxNext (.item x))
    pxPrevious := Function.update mem.pxPrevious (mem.pxNext (.item x)) (mem.pxPrevious (.item x))
    pxContainer := Function.update mem.pxContainer x none
    uxNumberOfItems := Function.update mem.uxNumberOfItems k (mem.uxNumberOfItems k - 1)
    pxIndex := Function.update mem.pxIndex k
      (if mem.pxIndex k = .item x then mem.pxPrevious (.item x) else mem.pxIndex k) }

/-- **Linking an item out.** -/
theorem Holds.linkOut (h : mem.Holds lists) (hr : lists.rota k = some r)
    (hx : x ∈ r.items) : (mem.linkOut k x).Holds (lists.leave x k (r.remove x)) := by
  have hlist := h.list k r hr
  have hnodup : r.items.Nodup := Lists.items_eq hr ▸ h.wf.nodup k
  obtain ⟨l, m, hitems⟩ := List.mem_iff_append.mp hx
  have hxl : x ∉ l := fun hmem => by
    rw [hitems] at hnodup
    exact (List.nodup_append.mp hnodup).2.2 x hmem x List.mem_cons_self rfl
  have hitems' : (r.remove x).items = l ++ m := by
    rw [Rota.items_remove hnodup, hitems, List.erase_append_right _ hxl, List.erase_cons_head]
  obtain ⟨hprev, hnext⟩ := hlist.neighbours hitems
  have hcmem : mem.pxPrevious (.item x) ∈ nodes k r.items := by
    rw [hprev]
    exact getLast_mem_nodes hitems
  have hdmem : mem.pxNext (.item x) ∈ nodes k r.items := by
    rw [hnext]
    exact head_mem_nodes (hitems.trans (List.append_cons l x m))
  refine ⟨h.value, h.owner, fun i c hi => ?_, fun k' r'' hr'' => ?_, h.wf.leave ?_⟩
  · rw [Lists.container_leave] at hi
    dsimp only [ListMem.linkOut]
    rw [Function.update_apply]
    split at hi
    next hix => rw [if_pos hix, Option.some.inj hi]
    next hix =>
      rw [if_neg hix]
      exact h.container i c hi
  · rw [Lists.rota_leave] at hr''
    split at hr''
    next hk =>
      subst hk
      obtain rfl := Option.some.inj hr''
      refine ⟨?_, ?_, hlist.endValue, ?_⟩
      · have hring := hlist.ring
        rw [hitems, List.map_append, List.map_cons] at hring
        rw [hitems', List.map_append]
        refine hring.remove ?_
        rw [← List.map_cons, ← List.map_append, ← hitems]
        exact nodup_nodes hnodup
      · dsimp only [ListMem.linkOut]
        rw [Function.update_self, hlist.number, hitems, hitems']
        simp
      · dsimp only [ListMem.linkOut]
        rw [Function.update_self, hlist.index, hprev, Rota.place_remove hnodup hitems]
        rfl
    next hk =>
      refine (h.list k' r'' hr'').congr ?_ ?_ (Function.update_of_ne hk ..) rfl
        (Function.update_of_ne hk ..)
      · intro p hp
        exact Function.update_of_ne (h.disjoint hr hr'' hk hcmem hp) ..
      · intro p hp
        exact Function.update_of_ne (h.disjoint hr hr'' hk hdmem hp) ..
  · rw [hitems', Lists.items_eq hr, hitems]
    exact List.perm_middle

/-- `vListInsertEnd` links its item in before the index. -/
theorem Holds.vListInsertEnd (h : mem.Holds lists) (hr : lists.rota k = some r)
    (hx : lists.container x = some none) :
    (mem.vListInsertEnd k x).Holds (lists.enter x k (r.insertEnd x)) := by
  obtain ⟨l, m, hitems, hitems', hplace⟩ := Rota.items_insertEnd (i := x) (r := r) (k := k)
  have hlist := h.list k r hr
  have hindex := hlist.index.trans hplace
  have hprev : mem.pxPrevious (mem.pxIndex k) = (nodes k l).getLast (List.cons_ne_nil _ _) := by
    rw [hindex]
    exact (hlist.between hitems).2
  have hmem : mem.pxIndex k ∈ nodes k r.items := by
    rw [hindex]
    exact head_mem_nodes hitems
  have hne : mem.pxIndex k ≠ .item x := fun heq => by
    have hxr : x ∈ lists.items k := Lists.items_eq hr ▸ item_mem_nodes.mp (heq ▸ hmem)
    cases hx.symm.trans ((h.wf.container_iff x k).mpr hxr)
  have hlink : mem.vListInsertEnd k x =
      mem.linkIn k x (mem.pxPrevious (mem.pxIndex k)) (mem.pxIndex k) := by
    simp only [ListMem.vListInsertEnd, setNext, setPrevious, setContainer, setNumber,
      ListMem.linkIn, Function.update_of_ne hne]
  rw [hlink]
  exact h.linkIn hr hx hitems hitems' Rota.place_insertEnd hprev.symm hindex.symm

/-- `vListInsert` links its item in behind the items that have no higher value. -/
theorem Holds.vListInsert (h : mem.Holds lists) (hr : lists.rota k = some r)
    (hx : lists.container x = some none) : ∃ mem', mem.vListInsert k x = some mem' ∧
      mem'.Holds (lists.enter x k (r.insert (fun i => lists.value i ≤ lists.value x) x)) := by
  have hlist := h.list k r hr
  have hit := hlist.iterator (mem.xItemValue (.item x))
  simp only [h.value] at hit
  set before : ι → Bool := fun i => lists.value i ≤ lists.value x with hbefore
  have hitems : r.items = r.items.takeWhile before ++ r.items.dropWhile before :=
    List.takeWhile_append_dropWhile.symm
  set c := (nodes k (r.items.takeWhile before)).getLast (List.cons_ne_nil _ _) with hc
  have hnext : mem.pxNext c = _ := (hlist.between hitems).1
  have hmem : mem.pxNext c ∈ nodes k r.items := by
    rw [hnext]
    exact head_mem_nodes hitems
  have hne : mem.pxNext c ≠ .item x := fun heq => by
    have hxr : x ∈ lists.items k := Lists.items_eq hr ▸ item_mem_nodes.mp (heq ▸ hmem)
    cases hx.symm.trans ((h.wf.container_iff x k).mpr hxr)
  refine ⟨mem.linkIn k x c (mem.pxNext c), ?_,
    h.linkIn hr hx hitems Rota.items_insert Rota.place_insert hc.symm hnext.symm⟩
  simp only [ListMem.vListInsert, h.value, hit, setNext, setPrevious, setContainer, setNumber,
    ListMem.linkIn, Function.update_self, Option.bind_eq_bind, Option.bind_some,
    Function.update_comm hne]
  rfl

/-- `uxListRemove` links its item out, and counts what is left. -/
theorem Holds.uxListRemove (h : mem.Holds lists) (hr : lists.rota k = some r)
    (hx : lists.container x = some (some k)) : ∃ mem',
      mem.uxListRemove x = some ((r.remove x).items.length, mem') ∧
        mem'.Holds (lists.leave x k (r.remove x)) := by
  have hlist := h.list k r hr
  have hxr : x ∈ r.items := Lists.items_eq hr ▸ (h.wf.container_iff x k).mp hx
  have hnodup : r.items.Nodup := Lists.items_eq hr ▸ h.wf.nodup k
  obtain ⟨l, m, hitems⟩ := List.mem_iff_append.mp hxr
  have hxm : x ∉ m := by
    rw [hitems] at hnodup
    exact (List.nodup_cons.mp (List.nodup_append.mp hnodup).2.1).1
  have hne : ItemPtr.item x ≠ mem.pxNext (.item x) := by
    rw [(hlist.neighbours hitems).2]
    intro heq
    have hmem := List.head_mem (l := m.map ItemPtr.item ++ [ItemPtr.xListEnd k]) (by simp)
    rw [← heq] at hmem
    exact hxm (by simpa using hmem)
  have hlength : mem.uxNumberOfItems k - 1 = (r.remove x).items.length := by
    rw [Rota.items_remove hnodup, List.length_erase_of_mem hxr, hlist.number]
  refine ⟨mem.linkOut k x, ?_, h.linkOut hr hxr⟩
  rw [ListMem.uxListRemove, h.container x _ hx]
  simp only [setNext, setPrevious, setContainer, setNumber, ListMem.setIndex, ListMem.linkOut,
    Function.update_of_ne hne, Function.update_self, Option.bind_eq_bind, Option.bind_some]
  by_cases hindex : mem.pxIndex k = .item x
  · simp [hindex, hlength]
  · simp [hindex, hlength]

/-- `listGET_OWNER_OF_NEXT_ENTRY` moves the place to the next item, and passes over the end
marker. -/
theorem Holds.getOwnerOfNextEntry (h : mem.Holds lists) (hr : lists.rota k = some r)
    (hnext : r.next = some (x, r')) : ∃ mem',
      mem.getOwnerOfNextEntry k = some (lists.owner x, mem') ∧ mem'.Holds (lists.turn k r') := by
  have hlist := h.list k r hr
  have hplace : mem.pxNext (mem.pxIndex k) =
      (r.ahead.map ItemPtr.item ++ [ItemPtr.xListEnd k]).head (by simp) := by
    rw [hlist.index, Rota.place_eq_getLast]
    exact (hlist.between (l := r.passed.reverse) (m := r.ahead) rfl).1
  have hend : mem.pxNext (.xListEnd k) =
      (r.items.map ItemPtr.item ++ [ItemPtr.xListEnd k]).head (by simp) :=
    (hlist.between (l := []) (m := r.items) rfl).1
  obtain ⟨passed, ahead⟩ := r
  cases ahead with
  | cons i ahead =>
    obtain ⟨rfl, rfl⟩ := Prod.mk.inj (Option.some.inj hnext)
    refine ⟨mem.setIndex k (.item i), ?_, h.setIndex hr ⟨i :: passed, ahead⟩ ?_⟩
    · simp only [ListMem.getOwnerOfNextEntry, ListMem.setIndex, Function.update_self, hplace]
      simp [ListMem.owner, h.owner]
    · simp [Rota.items]
  | nil =>
    cases hpassed : passed.reverse with
    | nil =>
      rw [Rota.next, hpassed] at hnext
      cases hnext
    | cons i ahead =>
      rw [Rota.next, hpassed] at hnext
      obtain ⟨rfl, rfl⟩ := Prod.mk.inj (Option.some.inj hnext)
      refine ⟨mem.setIndex k (.item i), ?_, h.setIndex hr ⟨[i], ahead⟩ ?_⟩
      · simp only [ListMem.getOwnerOfNextEntry, ListMem.setIndex, Function.update_self, hplace]
        simp [ListMem.owner, h.owner, hend, Rota.items, hpassed]
      · simp [Rota.items, hpassed]

/-- `vListInitialise` makes an empty ring, of whatever the memory held. -/
theorem Holds.vListInitialise (h : mem.Holds lists) (hk : lists.items k = []) :
    (mem.vListInitialise k).Holds (lists.turn k ⟨[], []⟩) := by
  refine ⟨fun i => ?_, h.owner, h.container, fun k' r' hr' => ?_, h.wf.turn ?_⟩
  · have hne : ItemPtr.item i ≠ ItemPtr.xListEnd k := fun heq => by cases heq
    exact (Function.update_of_ne hne portMaxDelay mem.xItemValue).trans (h.value i)
  · rw [Lists.rota_turn] at hr'
    split at hr'
    next hkk =>
      subst hkk
      obtain rfl := Option.some.inj hr'
      exact ⟨⟨Function.update_self .., Function.update_self ..⟩, Function.update_self ..,
        Function.update_self .., Function.update_self ..⟩
    next hkk =>
      have hne : ∀ p ∈ nodes k' r'.items, p ≠ .xListEnd k := by
        rintro p hp rfl
        rcases mem_nodes.mp hp with heq | ⟨i, -, heq⟩
        · exact hkk (ItemPtr.xListEnd.inj heq).symm
        · cases heq
      refine (h.list k' r' hr').congr (fun p hp => Function.update_of_ne (hne p hp) ..)
        (fun p hp => Function.update_of_ne (hne p hp) ..) (Function.update_of_ne hkk ..) ?_
        (Function.update_of_ne hkk ..)
      exact Function.update_of_ne (hne _ List.mem_cons_self) ..
  · rw [hk]
    exact .nil

/-- **Each call does to the memory what it does to the lists.** -/
theorem Holds.call (h : mem.Holds lists) {c : ListCall ι κ ω} {reply : c.Reply}
    {lists' : Lists ι κ ω} (hc : Lists.call c lists = some (reply, lists')) :
    ∃ mem', ListMem.call c mem = some (reply, mem') ∧ mem'.Holds lists' := by
  cases c with
  | vListInitialise k =>
    obtain ⟨hk, heq⟩ := Option.ite_none_right_eq_some.mp hc
    obtain ⟨rfl, rfl⟩ := Prod.mk.inj (Option.some.inj heq)
    exact ⟨_, rfl, h.vListInitialise hk⟩
  | vListInitialiseItem i =>
    obtain ⟨hi, heq⟩ := Option.ite_none_right_eq_some.mp hc
    obtain ⟨rfl, rfl⟩ := Prod.mk.inj (Option.some.inj heq)
    exact ⟨_, rfl, h.vListInitialiseItem hi⟩
  | listSetListItemOwner i w =>
    obtain ⟨rfl, rfl⟩ := Prod.mk.inj (Option.some.inj hc)
    refine ⟨_, rfl, h.value, fun j => ?_, h.container, fun k r hr => ?_, h.wf.1, h.wf.2⟩
    · exact congrFun (congrArg (Function.update · i w) (funext h.owner)) j
    · exact (h.list k r hr).congr (fun _ _ => rfl) (fun _ _ => rfl) rfl rfl rfl
  | listSetListItemValue i v =>
    obtain ⟨rfl, rfl⟩ := Prod.mk.inj (Option.some.inj hc)
    refine ⟨_, rfl, fun j => ?_, h.owner, h.container, fun k r hr => ?_, h.wf.1, h.wf.2⟩
    · dsimp only [setItemValue]
      rw [Function.update_apply, Function.update_apply, h.value]
      simp only [ItemPtr.item.injEq]
    · have hne : ItemPtr.xListEnd k ≠ ItemPtr.item i := fun heq => by cases heq
      exact (h.list k r hr).congr (fun _ _ => rfl) (fun _ _ => rfl) rfl
        (Function.update_of_ne hne v mem.xItemValue) rfl
  | listGetListItemValue i =>
    obtain ⟨rfl, rfl⟩ := Prod.mk.inj (Option.some.inj hc)
    exact ⟨mem, by rw [ListMem.call, h.value], h⟩
  | listListItemContainer i =>
    obtain ⟨c, hi, heq⟩ := Option.map_eq_some_iff.mp hc
    obtain ⟨rfl, rfl⟩ := Prod.mk.inj heq
    exact ⟨mem, by rw [ListMem.call, h.container i c hi], h⟩
  | vListInsertEnd k i =>
    obtain ⟨lists₁, hins, heq⟩ := Option.map_eq_some_iff.mp hc
    obtain ⟨rfl, rfl⟩ := Prod.mk.inj heq
    obtain ⟨hi, hr⟩ := Option.ite_none_right_eq_some.mp hins
    obtain ⟨r, hrota, rfl⟩ := Option.map_eq_some_iff.mp hr
    exact ⟨_, rfl, h.vListInsertEnd hrota hi⟩
  | vListInsert k i =>
    obtain ⟨lists₁, hins, heq⟩ := Option.map_eq_some_iff.mp hc
    obtain ⟨rfl, rfl⟩ := Prod.mk.inj heq
    obtain ⟨hi, hr⟩ := Option.ite_none_right_eq_some.mp hins
    obtain ⟨r, hrota, rfl⟩ := Option.map_eq_some_iff.mp hr
    obtain ⟨mem', hmem', hholds⟩ := h.vListInsert hrota hi
    exact ⟨mem', by rw [ListMem.call, hmem']; rfl, hholds⟩
  | uxListRemove i =>
    obtain ⟨k, hi, hrest⟩ := Option.bind_eq_some_iff.mp hc
    obtain ⟨r, hr, heq⟩ := Option.bind_eq_some_iff.mp hrest
    obtain ⟨rfl, rfl⟩ := Prod.mk.inj (Option.some.inj heq)
    exact h.uxListRemove hr (Option.join_eq_some_iff.mp hi)
  | listGetOwnerOfNextEntry k =>
    obtain ⟨r, hr, hrest⟩ := Option.bind_eq_some_iff.mp hc
    obtain ⟨⟨x, r'⟩, hnext, heq⟩ := Option.bind_eq_some_iff.mp hrest
    obtain ⟨rfl, rfl⟩ := Prod.mk.inj (Option.some.inj heq)
    exact h.getOwnerOfNextEntry hr hnext
  | listGetOwnerOfHeadEntry k =>
    obtain ⟨x, hx, heq⟩ := Option.map_eq_some_iff.mp hc
    obtain ⟨rfl, rfl⟩ := Prod.mk.inj heq
    exact ⟨mem, by rw [ListMem.call, h.getOwnerOfHeadEntry hx]; rfl, h⟩
  | listGetItemValueOfHeadEntry k =>
    obtain ⟨r, hr, heq⟩ := Option.map_eq_some_iff.mp hc
    obtain ⟨rfl, rfl⟩ := Prod.mk.inj heq
    exact ⟨mem, by rw [ListMem.call, h.getItemValueOfHeadEntry hr], h⟩
  | listCurrentListLength k =>
    obtain ⟨r, hr, heq⟩ := Option.map_eq_some_iff.mp hc
    obtain ⟨rfl, rfl⟩ := Prod.mk.inj heq
    exact ⟨mem, by rw [ListMem.call, (h.list k r hr).number], h⟩

end ListMem

end Holds

/-! ### Programs over the lists -/

/-- **Whatever is done with the lists, it is as if they were plain lists.** On any memory, with
nothing initialised, a program that uses the lists as they are to be used runs through: every
pointer it follows was set, every scan ends, and every reply is the one that plain lists give. -/
theorem listMem_run {ι κ ω α : Type} [DecidableEq ι] [DecidableEq κ] (mem : ListMem ι κ ω)
    (p : Program (ListCall ι κ ω) ListCall.Reply α) {a : α} {lists : Lists ι κ ω}
    (h : p.run Lists.call (Lists.start (fun i => mem.xItemValue (.item i)) mem.pvOwner) =
      some (a, lists)) :
    ∃ mem', p.run ListMem.call mem = some (a, mem') ∧ mem'.Holds lists :=
  Program.run_of_simulates (fun _ _ _ _ _ hholds hc => hholds.call hc) ListMem.holds_start h

/-- Two items, put into a list by their values, and the owner of the first. -/
def insertTwo : Program (ListCall Bool Unit Bool) ListCall.Reply Bool := do
  Program.ask (ListCall.vListInitialise ())
  Program.ask (ListCall.vListInitialiseItem false)
  Program.ask (ListCall.vListInitialiseItem true)
  Program.ask (ListCall.listSetListItemValue false 5)
  Program.ask (ListCall.listSetListItemValue true 3)
  Program.ask (ListCall.vListInsert () false)
  Program.ask (ListCall.vListInsert () true)
  Program.ask (ListCall.listGetOwnerOfHeadEntry ())

/-- The item with the lower value comes first. -/
theorem listMem_run_insertTwo : ∃ mem' lists, insertTwo.run ListMem.call
    ⟨fun _ => 7, fun _ => .item true, fun _ => .xListEnd (), id, fun _ => some (), fun _ => 9,
      fun _ => .item false⟩ = some (true, mem') ∧ mem'.Holds lists := by
  obtain ⟨lists, h⟩ : ∃ lists, insertTwo.run Lists.call (Lists.start (fun _ => 7) id) =
      some (true, lists) := ⟨_, rfl⟩
  obtain ⟨mem', hrun, hholds⟩ := listMem_run ⟨fun _ => 7, fun _ => .item true,
    fun _ => .xListEnd (), id, fun _ => some (), fun _ => 9, fun _ => .item false⟩ insertTwo h
  exact ⟨mem', lists, hrun, hholds⟩

end CubesatPipeline
