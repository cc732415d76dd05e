import CubesatPipeline.ListCode

/-!
# What the kernel's lists are for

A list is a list of items with a place in it (`CubesatPipeline.Rota`): what is put at its end
goes in before the place, and what is put in by value goes in behind the items that have no
higher value. `CubesatPipeline.Lists` has these for all lists, with the list that each item is
in, and `CubesatPipeline.Lists.call` is what the calls do to them.
-/

namespace CubesatPipeline

/-! ### Lists with a place in them -/

section Rota

variable {ι κ : Type}

/-- **A list with a place in it**: the items up to the place, the last of them first, and the
items after it. The item at the place is the one that was taken last, if any. -/
structure Rota (ι : Type) where
  passed : List ι
  ahead : List ι

namespace Rota

/-- The items, in their order. -/
def items (r : Rota ι) : List ι := r.passed.reverse ++ r.ahead

/-- The node that the place is at, in the ring of a list. -/
def place (pxList : κ) (r : Rota ι) : ItemPtr ι κ :=
  match r.passed with
  | [] => .xListEnd pxList
  | i :: _ => .item i

/-- An item goes in before the place. -/
def insertEnd (i : ι) : Rota ι → Rota ι
  | ⟨[], ahead⟩ => ⟨[], ahead ++ [i]⟩
  | ⟨j :: passed, ahead⟩ => ⟨j :: i :: passed, ahead⟩

/-- An item goes in before the first that does not come `before` it. -/
def insert (before : ι → Bool) (i : ι) (r : Rota ι) : Rota ι :=
  if r.passed.reverse.all before then
    ⟨r.passed, r.ahead.takeWhile before ++ i :: r.ahead.dropWhile before⟩
  else
    ⟨(r.passed.reverse.takeWhile before ++ i :: r.passed.reverse.dropWhile before).reverse,
      r.ahead⟩

/-- An item goes out. The place moves back if it was there. -/
def remove [DecidableEq ι] (i : ι) (r : Rota ι) : Rota ι := ⟨r.passed.erase i, r.ahead.erase i⟩

/-- The place moves to the next item. -/
def next : Rota ι → Option (ι × Rota ι)
  | ⟨passed, i :: ahead⟩ => some (i, ⟨i :: passed, ahead⟩)
  | ⟨passed, []⟩ =>
    match passed.reverse with
    | [] => none
    | i :: ahead => some (i, ⟨[i], ahead⟩)

variable {i : ι} {r r' : Rota ι} {k : κ}

/-- **An item is taken**, and the items stay where they are. -/
theorem exists_next (h : r.items ≠ []) :
    ∃ i r', r.next = some (i, r') ∧ i ∈ r.items ∧ r'.items = r.items := by
  obtain ⟨passed, _ | ⟨j, ahead⟩⟩ := r
  · rw [items, List.append_nil] at h
    obtain ⟨i, rest, hrest⟩ := List.exists_cons_of_ne_nil h
    exact ⟨i, ⟨[i], rest⟩, by rw [next, hrest], by simp [items, hrest], by simp [items, hrest]⟩
  · exact ⟨j, ⟨j :: passed, ahead⟩, rfl, by simp [items], by simp [items]⟩

/-- What `insertEnd` does to the list. -/
theorem items_insertEnd : ∃ l m, r.items = l ++ m ∧ (r.insertEnd i).items = l ++ i :: m ∧
    r.place k = (m.map ItemPtr.item ++ [ItemPtr.xListEnd k]).head (by simp) := by
  obtain ⟨_ | ⟨j, passed⟩, ahead⟩ := r
  · exact ⟨ahead, [], by simp [items], by simp [items, insertEnd], rfl⟩
  · exact ⟨passed.reverse, j :: ahead, by simp [items], by simp [items, insertEnd], rfl⟩

theorem place_insertEnd : (r.insertEnd i).place k = r.place k := by
  obtain ⟨_ | ⟨j, passed⟩, ahead⟩ := r <;> rfl

/-- What `insert` does to the list. -/
theorem items_insert {before : ι → Bool} :
    (r.insert before i).items = r.items.takeWhile before ++ i :: r.items.dropWhile before := by
  obtain ⟨passed, ahead⟩ := r
  by_cases hall : passed.reverse.all before
  · have hpos : ∀ j ∈ passed.reverse, before j := List.all_eq_true.mp hall
    rw [insert, if_pos hall, items, items, List.takeWhile_append_of_pos hpos,
      List.dropWhile_append_of_pos hpos, List.append_assoc]
  · obtain ⟨j, hj, hbefore⟩ : ∃ j ∈ passed.reverse, ¬ before j = true := by
      rw [List.all_eq_true] at hall
      push Not at hall
      exact hall
    have htake : (passed.reverse.takeWhile before).length ≠ passed.reverse.length := by
      intro hlen
      have heq := (List.takeWhile_sublist (l := passed.reverse) before).eq_of_length hlen
      exact hbefore (List.takeWhile_eq_self_iff.mp heq j hj)
    have hdrop : passed.reverse.dropWhile before ≠ [] := fun hnil =>
      hbefore (List.dropWhile_eq_nil_iff.mp hnil j hj)
    rw [insert, if_neg hall, items, items, List.reverse_reverse, List.takeWhile_append,
      if_neg htake, List.dropWhile_append, if_neg (by simpa using hdrop), List.append_assoc,
      List.cons_append]

/-- The place is behind what was passed. -/
theorem place_eq_getLast : r.place k =
    (ItemPtr.xListEnd k :: r.passed.reverse.map ItemPtr.item).getLast (List.cons_ne_nil _ _) := by
  obtain ⟨_ | ⟨j, passed⟩, ahead⟩ := r
  · rfl
  · simp [place]

theorem place_insert {before : ι → Bool} : (r.insert before i).place k = r.place k := by
  obtain ⟨passed, ahead⟩ := r
  by_cases hall : passed.reverse.all before
  · rw [insert, if_pos hall, place, place]
  · rw [insert, if_neg hall, place_eq_getLast, place_eq_getLast]
    have hdrop : passed.reverse.dropWhile before ≠ [] := fun hnil =>
      hall (List.all_eq_true.mpr (List.dropWhile_eq_nil_iff.mp hnil))
    obtain ⟨l, j, hl⟩ := (List.eq_nil_or_concat _).resolve_left hdrop
    have hpassed : passed.reverse = passed.reverse.takeWhile before ++ (l ++ [j]) := by
      rw [← List.concat_eq_append, ← hl, List.takeWhile_append_dropWhile]
    simp only [List.reverse_reverse, hl]
    generalize passed.reverse.takeWhile before = t at hpassed
    simp [hpassed]

/-- What `remove` does to the list. -/
theorem items_remove [DecidableEq ι] (hnodup : r.items.Nodup) :
    (r.remove i).items = r.items.erase i := by
  obtain ⟨passed, ahead⟩ := r
  obtain ⟨hpassed, -, hdisj⟩ := List.nodup_append.mp hnodup
  have hrev : (passed.erase i).reverse = passed.reverse.erase i := by
    rw [hpassed.erase_eq_filter, (List.nodup_reverse.mp hpassed).erase_eq_filter,
      List.filter_reverse]
  rw [remove, items, items, hrev]
  by_cases hi : i ∈ passed.reverse
  · rw [List.erase_append_left _ hi, List.erase_of_not_mem fun h => hdisj i hi i h rfl]
  · rw [List.erase_append_right _ hi, List.erase_of_not_mem hi]

/-- The place moves back from an item that goes out. -/
theorem place_remove [DecidableEq ι] [DecidableEq κ] (hnodup : r.items.Nodup) {l m : List ι}
    (hitems : r.items = l ++ i :: m) : (r.remove i).place k =
      if r.place k = .item i then (ItemPtr.xListEnd k :: l.map .item).getLast (by simp)
      else r.place k := by
  obtain ⟨passed, ahead⟩ := r
  cases passed with
  | nil => rfl
  | cons j passed =>
    by_cases hj : j = i
    · subst hj
      have hl : l = passed.reverse := by
        have heq : l ++ j :: m = passed.reverse ++ j :: ahead := by
          rw [← hitems, items]
          simp
        rw [hitems] at hnodup
        have hno : j ∉ l ++ m := (List.nodup_cons.mp (List.nodup_middle.mp hnodup)).1
        rw [List.mem_append, not_or] at hno
        exact ((List.append_cons_inj_of_notMem hno.1 hno.2).mp heq).1
      have hplace : (⟨j :: passed, ahead⟩ : Rota ι).place k = .item j := rfl
      rw [if_pos hplace, place_eq_getLast, remove, hl]
      simp only [List.erase_cons_head]
    · have hne : ¬ (⟨j :: passed, ahead⟩ : Rota ι).place k = .item i := fun h =>
        hj (ItemPtr.item.inj h)
      rw [if_neg hne, remove, place, place, List.erase_cons_tail (by simpa using hj)]

/-! #### When an item is taken -/

section Wait

variable [DecidableEq ι] {j : ι} {n : ℕ}

/-- **How long an item waits to be taken**, in a list of at most `n` items: what is before it in
this round, or all of this round and then a whole one. An item that goes out can move the place
back to another item, and what comes in then goes in before that item; it does so in this round
only. -/
def wait (n : ℕ) (i : ι) (r : Rota ι) : ℕ :=
  if i ∈ r.ahead then r.ahead.idxOf i else r.ahead.length + n

theorem idxOf_erase_le (hne : j ≠ i) (l : List ι) : (l.erase j).idxOf i ≤ l.idxOf i := by
  induction l with
  | nil => exact le_rfl
  | cons a l ih =>
    by_cases ha : a = j
    · subst ha
      rw [List.erase_cons_head, List.idxOf_cons_ne _ hne]
      exact Nat.le_succ _
    · rw [List.erase_cons_tail (by simpa using ha)]
      by_cases hi : a = i
      · rw [hi, List.idxOf_cons_self]
        exact Nat.zero_le _
      · rw [List.idxOf_cons_ne _ hi, List.idxOf_cons_ne _ hi]
        exact Nat.succ_le_succ ih

/-- Another item that goes out does not make an item wait longer. -/
theorem wait_remove (hne : j ≠ i) : (r.remove j).wait n i ≤ r.wait n i := by
  have hmem : i ∈ (r.remove j).ahead ↔ i ∈ r.ahead := List.mem_erase_of_ne hne.symm
  rw [wait, wait]
  by_cases hi : i ∈ r.ahead
  · rw [if_pos (hmem.mpr hi), if_pos hi]
    exact idxOf_erase_le hne r.ahead
  · rw [if_neg (mt hmem.mp hi), if_neg hi]
    exact Nat.add_le_add_right (List.length_erase_le) n

/-- An item that goes in does not make another wait longer. -/
theorem wait_insertEnd (hi : i ∈ r.items) : (r.insertEnd j).wait n i ≤ r.wait n i := by
  obtain ⟨_ | ⟨a, passed⟩, ahead⟩ := r
  · have hahead : i ∈ ahead := by simpa [items] using hi
    have hmem : i ∈ (insertEnd j ⟨[], ahead⟩).ahead := List.mem_append_left _ hahead
    rw [wait, wait, if_pos hmem, if_pos hahead]
    exact (List.idxOf_append_of_mem hahead).le
  · exact le_rfl

/-- **Each time another item is taken, an item waits less long.** -/
theorem wait_next (hi : i ∈ r.items) (hlen : r.items.length ≤ n) (h : r.next = some (j, r'))
    (hne : j ≠ i) : r'.wait n i < r.wait n i := by
  obtain ⟨passed, _ | ⟨a, ahead⟩⟩ := r
  · have hpassed : i ∈ passed.reverse := by simpa [items] using hi
    have hlen' : passed.reverse.length ≤ n := by simpa [items] using hlen
    rw [next] at h
    cases hrev : passed.reverse with
    | nil =>
      rw [hrev] at hpassed
      cases hpassed
    | cons b rest =>
      rw [hrev] at h hpassed hlen'
      obtain ⟨rfl, rfl⟩ := Prod.mk.inj (Option.some.inj h)
      have hrest : i ∈ rest := (List.mem_cons.mp hpassed).resolve_left hne.symm
      have hlt := List.idxOf_lt_length_of_mem hrest
      rw [wait, if_pos hrest, wait, if_neg List.not_mem_nil, List.length_nil, Nat.zero_add]
      exact hlt.trans hlen'
  · obtain ⟨rfl, rfl⟩ := Prod.mk.inj (Option.some.inj h)
    have hmem : i ∈ a :: ahead ↔ i ∈ ahead := by simp [hne.symm]
    by_cases hahead : i ∈ ahead
    · rw [wait, if_pos hahead, wait, if_pos (hmem.mpr hahead), List.idxOf_cons_ne _ hne]
      exact Nat.lt_succ_self _
    · rw [wait, if_neg hahead, wait, if_neg (mt hmem.mp hahead), List.length_cons]
      exact Nat.add_lt_add_right (Nat.lt_succ_self _) n

/-- No item waits for two rounds. -/
theorem wait_lt (hi : i ∈ r.items) (hlen : r.items.length ≤ n) : r.wait n i < 2 * n := by
  have hsum : r.passed.length + r.ahead.length ≤ n := by
    simpa [items] using hlen
  rw [wait]
  split
  next hahead =>
    have hlt := List.idxOf_lt_length_of_mem hahead
    omega
  next hnot =>
    have hpassed : i ∈ r.passed := by
      rw [items, List.mem_append, List.mem_reverse] at hi
      exact hi.resolve_right hnot
    have hpos := List.length_pos_of_mem hpassed
    omega

end Wait

end Rota

end Rota

/-! ### What the lists are for -/

section Lists

variable {ι κ ω : Type}

/-- **What the lists hold**: for each list that has been initialised, its items, and for each
item that has been initialised, the list it is in, if any. -/
structure Lists (ι κ ω : Type) where
  value : ι → TickType
  owner : ι → ω
  container : ι → Option (Option κ)
  rota : κ → Option (Rota ι)

namespace Lists

/-- Nothing has been initialised. -/
def start (value : ι → TickType) (owner : ι → ω) : Lists ι κ ω :=
  ⟨value, owner, fun _ => none, fun _ => none⟩

/-- The items of a list. -/
def items (lists : Lists ι κ ω) (pxList : κ) : List ι :=
  (lists.rota pxList).elim [] Rota.items

/-- **An item is recorded to be in the list that it is in**, and is there once. -/
structure WF (lists : Lists ι κ ω) : Prop where
  container_iff : ∀ i k, lists.container i = some (some k) ↔ i ∈ lists.items k
  nodup : ∀ k, (lists.items k).Nodup

variable [DecidableEq ι] [DecidableEq κ]

/-- The item is in the list, which is now `r`. -/
def enter (lists : Lists ι κ ω) (i : ι) (k : κ) (r : Rota ι) : Lists ι κ ω :=
  { lists with
    container := Function.update lists.container i (some (some k))
    rota := Function.update lists.rota k (some r) }

/-- The item is in no list, and the list it was in is now `r`. -/
def leave (lists : Lists ι κ ω) (i : ι) (k : κ) (r : Rota ι) : Lists ι κ ω :=
  { lists with
    container := Function.update lists.container i (some none)
    rota := Function.update lists.rota k (some r) }

/-- The item is ready to be used, and in no list. -/
def register (lists : Lists ι κ ω) (i : ι) : Lists ι κ ω :=
  { lists with container := Function.update lists.container i (some none) }

/-- The place of the list has moved. -/
def turn (lists : Lists ι κ ω) (k : κ) (r : Rota ι) : Lists ι κ ω :=
  { lists with rota := Function.update lists.rota k (some r) }

/-- `vListInsertEnd`, on lists. -/
def insertEnd (lists : Lists ι κ ω) (k : κ) (i : ι) : Option (Lists ι κ ω) :=
  if lists.container i = some none then
    (lists.rota k).map fun r => lists.enter i k (r.insertEnd i)
  else none

/-- `vListInsert`, on lists: behind the items that have no higher value. -/
def insert (lists : Lists ι κ ω) (k : κ) (i : ι) : Option (Lists ι κ ω) :=
  if lists.container i = some none then
    (lists.rota k).map fun r =>
      lists.enter i k (r.insert (fun j => lists.value j ≤ lists.value i) i)
  else none

/-- `uxListRemove`, on lists. -/
def remove (lists : Lists ι κ ω) (i : ι) : Option (ℕ × Lists ι κ ω) := do
  let k ← (lists.container i).join
  let r ← lists.rota k
  return ((r.remove i).items.length, lists.leave i k (r.remove i))

/-- `listGET_OWNER_OF_NEXT_ENTRY`, on lists. -/
def next (lists : Lists ι κ ω) (k : κ) : Option (ω × Lists ι κ ω) := do
  let r ← lists.rota k
  let taken ← r.next
  return (lists.owner taken.1, lists.turn k taken.2)

/-- **The calls, on lists.** A list is initialised when it is empty, an item when it is in no
list; and an item goes into a list when it is in none. -/
def call : (c : ListCall ι κ ω) → Lists ι κ ω → Option (c.Reply × Lists ι κ ω)
  | .vListInitialise k, lists =>
    if lists.items k = [] then some ((), lists.turn k ⟨[], []⟩) else none
  | .vListInitialiseItem i, lists =>
    if (lists.container i).join = none then some ((), lists.register i) else none
  | .listSetListItemOwner i w, lists =>
    some ((), { lists with owner := Function.update lists.owner i w })
  | .listSetListItemValue i v, lists =>
    some ((), { lists with value := Function.update lists.value i v })
  | .listGetListItemValue i, lists => some (lists.value i, lists)
  | .listListItemContainer i, lists => (lists.container i).map fun c => (c, lists)
  | .vListInsertEnd k i, lists => (lists.insertEnd k i).map fun lists => ((), lists)
  | .vListInsert k i, lists => (lists.insert k i).map fun lists => ((), lists)
  | .uxListRemove i, lists => lists.remove i
  | .listGetOwnerOfNextEntry k, lists => lists.next k
  | .listGetOwnerOfHeadEntry k, lists =>
    (lists.items k).head?.map fun i => (lists.owner i, lists)
  | .listGetItemValueOfHeadEntry k, lists =>
    (lists.rota k).map fun r => (r.items.head?.elim portMaxDelay lists.value, lists)
  | .listCurrentListLength k, lists => (lists.rota k).map fun r => (r.items.length, lists)

end Lists

end Lists

/-! ### Who is in which list -/

section Lists

namespace Lists

variable {ι κ ω : Type} {lists lists' : Lists ι κ ω} {i j : ι} {k k' : κ} {r : Rota ι}

theorem items_eq (hr : lists.rota k = some r) : lists.items k = r.items := by
  rw [items, hr]
  rfl

theorem exists_rota (hi : i ∈ lists.items k) : ∃ r, lists.rota k = some r := by
  cases hr : lists.rota k with
  | none =>
    rw [items, hr] at hi
    cases hi
  | some r => exact ⟨r, rfl⟩

/-- Different lists have no item in common. -/
theorem WF.list_unique (h : lists.WF) (hk : i ∈ lists.items k) (hk' : i ∈ lists.items k') :
    k = k' := by
  have heq := ((h.container_iff i k).mpr hk).symm.trans ((h.container_iff i k').mpr hk')
  exact Option.some.inj (Option.some.inj heq)

/-- Items that go in behind those with no higher value stay in order. -/
theorem pairwise_insert {v : ι → TickType} {l : List ι} (h : l.Pairwise fun a b => v a ≤ v b) :
    (l.takeWhile (fun j => v j ≤ v i) ++ i :: l.dropWhile fun j => v j ≤ v i).Pairwise
      fun a b => v a ≤ v b := by
  have hsplit := h
  rw [← List.takeWhile_append_dropWhile (l := l) (p := fun j => decide (v j ≤ v i))] at hsplit
  obtain ⟨htake, hdrop, hcross⟩ := List.pairwise_append.mp hsplit
  have hle : ∀ a ∈ l.takeWhile fun j => v j ≤ v i, v a ≤ v i := fun a ha => by
    simpa using List.mem_takeWhile_imp ha
  have hge : ∀ b ∈ l.dropWhile fun j => v j ≤ v i, v i ≤ v b := by
    intro b hb
    cases hd : l.dropWhile fun j => decide (v j ≤ v i) with
    | nil =>
      rw [hd] at hb
      cases hb
    | cons c m =>
      have hc : ¬ v c ≤ v i := by
        have hne : l.dropWhile (fun j => decide (v j ≤ v i)) ≠ [] := by
          rw [hd]
          exact List.cons_ne_nil c m
        simpa [hd] using List.head_dropWhile_not (fun j => decide (v j ≤ v i)) hne
      rw [hd] at hb hdrop
      rcases List.mem_cons.mp hb with rfl | hb
      · exact UInt32.le_of_lt (UInt32.not_le.mp hc)
      · exact UInt32.le_trans (UInt32.le_of_lt (UInt32.not_le.mp hc))
          ((List.pairwise_cons.mp hdrop).1 b hb)
  refine List.pairwise_append.mpr ⟨htake, List.pairwise_cons.mpr ⟨hge, hdrop⟩, ?_⟩
  intro a ha b hb
  rcases List.mem_cons.mp hb with rfl | hb
  · exact hle a ha
  · exact hcross a ha b hb

section Items

variable [DecidableEq ι]

theorem container_register : (lists.register i).container j =
    if j = i then some none else lists.container j := Function.update_apply ..

/-- An item is not taken out of a list that it is not in. -/
theorem map_remove (hi : i ∉ lists.items k) :
    (lists.rota k).map (Rota.remove i) = lists.rota k := by
  cases hr : lists.rota k with
  | none => rfl
  | some r =>
    rw [items_eq hr, Rota.items, List.mem_append, List.mem_reverse, not_or] at hi
    rw [Option.map_some, Rota.remove, List.erase_of_not_mem hi.1, List.erase_of_not_mem hi.2]

/-- How long an item of a list waits to be taken. -/
def wait (lists : Lists ι κ ω) (n : ℕ) (k : κ) (i : ι) : ℕ :=
  (lists.rota k).elim 0 (Rota.wait n i)

/-- **An item has been taken out**, and nothing else. -/
structure Without (lists : Lists ι κ ω) (i : ι) (lists' : Lists ι κ ω) : Prop where
  wf : lists'.WF
  items : ∀ l, lists'.items l = (lists.items l).erase i
  rota : ∀ l, lists'.rota l = (lists.rota l).map (Rota.remove i)
  container : ∀ j, lists'.container j = if j = i then some none else lists.container j
  value : lists'.value = lists.value
  owner : lists'.owner = lists.owner

/-- **An item has been put in**, and nothing else. -/
structure With (lists : Lists ι κ ω) (i : ι) (k : κ) (lists' : Lists ι κ ω) : Prop where
  wf : lists'.WF
  perm : (lists'.items k).Perm (i :: lists.items k)
  rota : ∀ l, l ≠ k → lists'.rota l = lists.rota l
  container : ∀ j, lists'.container j = if j = i then some (some k) else lists.container j
  value : lists'.value = lists.value
  owner : lists'.owner = lists.owner
  initialised : ∀ l, (lists'.rota l).isSome = (lists.rota l).isSome

theorem Without.initialised (h : lists.Without i lists') (l : κ) :
    (lists'.rota l).isSome = (lists.rota l).isSome := by
  rw [h.rota, Option.isSome_map]

theorem With.items (h : lists.With i k lists') (l : κ) (hl : l ≠ k) :
    lists'.items l = lists.items l := by
  rw [Lists.items, Lists.items, h.rota l hl]

theorem Without.mem_iff (h : lists.Without i lists') (hwf : lists.WF) {l : κ} :
    j ∈ lists'.items l ↔ j ≠ i ∧ j ∈ lists.items l := by
  rw [h.items l]
  exact (hwf.nodup l).mem_erase_iff

theorem With.mem_iff (h : lists.With i k lists') {l : κ} :
    j ∈ lists'.items l ↔ (j = i ∧ l = k) ∨ j ∈ lists.items l := by
  by_cases hl : l = k
  · rw [hl, h.perm.mem_iff, List.mem_cons]
    simp
  · rw [h.items l hl]
    simp [hl]

theorem Without.wait_le (h : lists.Without i lists') (hne : i ≠ j) (n : ℕ) :
    lists'.wait n k j ≤ lists.wait n k j := by
  rw [wait, wait, h.rota]
  cases lists.rota k with
  | none => exact le_rfl
  | some r => exact r.wait_remove hne

theorem With.wait_le (h : lists.With i k lists')
    (hend : lists'.rota k = (lists.rota k).map (Rota.insertEnd i)) (hj : j ∈ lists.items k')
    (n : ℕ) : lists'.wait n k' j ≤ lists.wait n k' j := by
  obtain ⟨r, hr⟩ := exists_rota hj
  rw [items_eq hr] at hj
  rw [wait, wait]
  by_cases hk : k' = k
  · subst hk
    rw [hend, hr]
    exact r.wait_insertEnd hj
  · rw [h.rota k' hk]

end Items

variable [DecidableEq κ]

theorem rota_turn : (lists.turn k r).rota k' = if k' = k then some r else lists.rota k' :=
  Function.update_apply ..

theorem items_turn :
    (lists.turn k r).items k' = if k' = k then r.items else lists.items k' := by
  rw [items, rota_turn]
  split <;> rfl

theorem WF.turn (h : lists.WF) (hr : r.items.Perm (lists.items k)) : (lists.turn k r).WF := by
  refine ⟨fun j k' => ?_, fun k' => ?_⟩
  · rw [items_turn]
    split
    next hk =>
      subst hk
      rw [hr.mem_iff]
      exact h.container_iff j k'
    next hk => exact h.container_iff j k'
  · rw [items_turn]
    split
    · exact hr.nodup_iff.mpr (h.nodup k)
    · exact h.nodup k'

variable [DecidableEq ι]

theorem container_enter : (lists.enter i k r).container j =
    if j = i then some (some k) else lists.container j := Function.update_apply ..

theorem container_leave : (lists.leave i k r).container j =
    if j = i then some none else lists.container j := Function.update_apply ..

theorem rota_enter : (lists.enter i k r).rota k' = if k' = k then some r else lists.rota k' :=
  Function.update_apply ..

theorem rota_leave : (lists.leave i k r).rota k' = if k' = k then some r else lists.rota k' :=
  Function.update_apply ..

theorem items_enter :
    (lists.enter i k r).items k' = if k' = k then r.items else lists.items k' := by
  rw [items, rota_enter]
  split <;> rfl

theorem items_leave :
    (lists.leave i k r).items k' = if k' = k then r.items else lists.items k' := by
  rw [items, rota_leave]
  split <;> rfl

theorem WF.enter (h : lists.WF) (hi : lists.container i = some none)
    (hr : r.items.Perm (i :: lists.items k)) : (lists.enter i k r).WF := by
  have hno : ∀ k, i ∉ lists.items k := fun k hmem => by
    have heq := hi.symm.trans ((h.container_iff i k).mpr hmem)
    cases heq
  refine ⟨fun j k' => ?_, fun k' => ?_⟩
  · rw [items_enter, container_enter]
    split
    next hj =>
      subst hj
      split
      next hk => simp [hk, hr.mem_iff]
      next hk => simpa [hno k'] using fun heq => hk heq.symm
    next hj =>
      split
      next hk =>
        subst hk
        rw [hr.mem_iff, List.mem_cons, h.container_iff]
        exact (or_iff_right hj).symm
      next hk => exact h.container_iff j k'
  · rw [items_enter]
    split
    · exact hr.nodup_iff.mpr (List.nodup_cons.mpr ⟨hno k, h.nodup k⟩)
    · exact h.nodup k'

theorem WF.leave (h : lists.WF) (hr : (lists.items k).Perm (i :: r.items)) :
    (lists.leave i k r).WF := by
  have hi : i ∈ lists.items k := hr.mem_iff.mpr List.mem_cons_self
  have hir := List.nodup_cons.mp (hr.nodup_iff.mp (h.nodup k))
  refine ⟨fun j k' => ?_, fun k' => ?_⟩
  · rw [items_leave, container_leave]
    split
    next hj =>
      subst hj
      split
      next hk => simp [hir.1]
      next hk => simpa using fun hmem => hk (h.list_unique hmem hi)
    next hj =>
      split
      next hk =>
        subst hk
        rw [h.container_iff, hr.mem_iff, List.mem_cons]
        exact or_iff_right hj
      next hk => exact h.container_iff j k'
  · rw [items_leave]
    split
    · exact hir.2
    · exact h.nodup k'

/-- `uxListRemove` takes its item out, and counts what is left. -/
theorem exists_remove (h : lists.WF) (hi : i ∈ lists.items k) :
    ∃ lists', lists.remove i = some (((lists.items k).erase i).length, lists') ∧
      lists.Without i lists' := by
  obtain ⟨r, hr⟩ := exists_rota hi
  have hnodup : r.items.Nodup := items_eq hr ▸ h.nodup k
  have hitems : (r.remove i).items = (lists.items k).erase i := by
    rw [items_eq hr, Rota.items_remove hnodup]
  refine ⟨lists.leave i k (r.remove i), ?_, ⟨h.leave ?_, fun l => ?_, fun l => ?_,
    fun j => container_leave, rfl, rfl⟩⟩
  · rw [remove, (h.container_iff i k).mpr hi, ← hitems]
    simp [hr]
  · rw [hitems]
    exact List.perm_cons_erase hi
  · rw [items_leave]
    split
    next hl => rw [hitems, hl]
    next hl => exact (List.erase_of_not_mem fun hmem => hl (h.list_unique hmem hi)).symm
  · rw [rota_leave]
    split
    next hl => rw [hl, hr]; rfl
    next hl => exact (map_remove fun hmem => hl (h.list_unique hmem hi)).symm

theorem enter_with (h : lists.WF) (hr : lists.rota k = some r) (hi : lists.container i = some none)
    {r' : Rota ι} (hperm : r'.items.Perm (i :: lists.items k)) :
    lists.With i k (lists.enter i k r') := by
  refine ⟨h.enter hi hperm, ?_, fun l hl => ?_, fun j => container_enter, rfl, rfl, fun l => ?_⟩
  · rw [items_enter, if_pos rfl]
    exact hperm
  · rw [rota_enter, if_neg hl]
  · rw [rota_enter]
    split
    next hl => rw [hl, hr]; rfl
    next hl => rfl

/-- `vListInsertEnd` puts its item in. -/
theorem exists_insertEnd (h : lists.WF) (hr : lists.rota k = some r)
    (hi : lists.container i = some none) : ∃ lists', lists.insertEnd k i = some lists' ∧
      lists.With i k lists' ∧ lists'.rota k = some (r.insertEnd i) := by
  obtain ⟨l, m, hitems, hitems', -⟩ := Rota.items_insertEnd (i := i) (r := r) (k := k)
  refine ⟨lists.enter i k (r.insertEnd i), by rw [insertEnd, if_pos hi, hr]; rfl,
    enter_with h hr hi ?_, by rw [rota_enter, if_pos rfl]⟩
  rw [hitems', items_eq hr, hitems]
  exact List.perm_middle

/-- `vListInsert` puts its item in, behind the items that have no higher value. -/
theorem exists_insert (h : lists.WF) (hr : lists.rota k = some r)
    (hi : lists.container i = some none) : ∃ lists', lists.insert k i = some lists' ∧
      lists.With i k lists' ∧
      lists'.items k = (lists.items k).takeWhile (fun j => lists.value j ≤ lists.value i) ++
        i :: (lists.items k).dropWhile fun j => lists.value j ≤ lists.value i := by
  set before : ι → Bool := fun j => lists.value j ≤ lists.value i
  have hitems : (r.insert before i).items =
      (lists.items k).takeWhile before ++ i :: (lists.items k).dropWhile before := by
    rw [Rota.items_insert, items_eq hr]
  refine ⟨lists.enter i k (r.insert before i), by rw [insert, if_pos hi, hr]; rfl,
    enter_with h hr hi ?_, by rw [items_enter, if_pos rfl, hitems]⟩
  rw [hitems]
  refine List.perm_middle.trans ?_
  rw [List.takeWhile_append_dropWhile]

end Lists

end Lists

end CubesatPipeline
