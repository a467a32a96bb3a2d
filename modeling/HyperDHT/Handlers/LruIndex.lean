import Mathlib.Data.List.AList
import Mathlib.Data.List.Induction
import HyperDHT.Handlers.LruCache

/-!
# The cache with its index

The cache as `lru_cache.hpp` keeps it: a linked list of entries, and a map from keys to positions in the
list. A position is the node of an entry, which keeps its identity when it is moved to the front. The list
of entries alone, `LruCache`, is what the cache is for; it is ordered by the last `put` or `get` of the keys.

## Main definitions

* `Handlers.IndexedCache` — the list of nodes and the index, with `put`, `get`, `remove` and `gc`.
* `Handlers.IndexedCache.Coherent` — the index has the node of every key, and nothing else.
* `Handlers.CacheOp`, `IndexedCache.run`, `LruCache.run` — sequences of calls.
* `Handlers.lastUse` — the last call that put or got a key.
* `Handlers.IndexedCache.Refines` — what the cache is after some calls, in terms of the calls.

## Main results

* `Handlers.IndexedCache.step_refines` — a call uses no dangling position, and does to the list what it
  does to the entries.
* `Handlers.LruCache.recent_run` — the entries are ordered by their last use.
* `Handlers.IndexedCache.refines_run` — the cache after every sequence of calls.

## Design

A position that is not in the list is undefined behaviour in the source, and has no outcome here.
-/

set_option autoImplicit false

namespace HyperDHT.Handlers

variable {κ ν : Type*} [DecidableEq κ]

/-! ## The list and the index -/

/-- The cache with its index. -/
structure IndexedCache (κ ν : Type*) [DecidableEq κ] where
  maxSize : ℕ
  /-- The nodes of the list, the newest first, each with its identity. -/
  entries : List (ℕ × Entry κ ν) := []
  /-- The positions of the keys. -/
  map : AList fun _ : κ => ℕ := ∅
  /-- The node that is allocated next. -/
  nextNode : ℕ := 0

namespace IndexedCache

/-- The entry at a position. -/
def deref (entries : List (ℕ × Entry κ ν)) (it : ℕ) : Option (Entry κ ν) :=
  (entries.find? fun n => n.1 = it).map Prod.snd

/-- Move the node at a position to the front. -/
def splice (entries : List (ℕ × Entry κ ν)) (it : ℕ) : Option (List (ℕ × Entry κ ν)) :=
  (deref entries it).map fun e => (it, e) :: entries.filter fun n => n.1 ≠ it

/-- Write to the entry at a position. -/
def modify (entries : List (ℕ × Entry κ ν)) (it : ℕ) (f : Entry κ ν → Entry κ ν) :
    List (ℕ × Entry κ ν) :=
  entries.map fun n => if n.1 = it then (n.1, f n.2) else n

/-- The loop of `put` that makes room: the last node goes while there are `max_size` of them. -/
def evict (maxSize : ℕ) (entries : List (ℕ × Entry κ ν)) (map : AList fun _ : κ => ℕ) :
    List (ℕ × Entry κ ν) × AList fun _ : κ => ℕ :=
  if h : maxSize ≤ entries.length ∧ entries ≠ [] then
    evict maxSize entries.dropLast (map.erase (entries.getLast h.2).2.key)
  else (entries, map)
termination_by entries.length
decreasing_by
  have hpos := List.length_pos_iff.2 h.2
  rw [List.length_dropLast]
  omega

/-- Insert or update. -/
def put (c : IndexedCache κ ν) (key : κ) (value : ν) (now : UInt64) : Option (IndexedCache κ ν) :=
  match c.map.lookup key with
  | some it =>
    (splice c.entries it).map fun entries =>
      { c with
        entries := modify (modify entries it fun e => { e with value }) it fun e =>
          { e with createdAt := now } }
  | none =>
    let room := evict c.maxSize c.entries c.map
    some { c with
      entries := (c.nextNode, ⟨key, value, now⟩) :: room.1
      map := room.2.insert key c.nextNode
      nextNode := c.nextNode + 1 }

/-- Look a key up; its node moves to the front. -/
def get (c : IndexedCache κ ν) (key : κ) : Option (IndexedCache κ ν × Option ν) :=
  match c.map.lookup key with
  | none => some (c, none)
  | some it => do
    let entries ← splice c.entries it
    let e ← deref entries it
    some ({ c with entries }, some e.value)

/-- Remove a key. -/
def remove (c : IndexedCache κ ν) (key : κ) : Option (IndexedCache κ ν) :=
  match c.map.lookup key with
  | none => some c
  | some it =>
    (deref c.entries it).map fun _ =>
      { c with
        entries := c.entries.filter fun n => n.1 ≠ it
        map := c.map.erase key }

/-- The loop of `gc` over the nodes. -/
def gcLoop (now maxAge : UInt64) : List (ℕ × Entry κ ν) → (AList fun _ : κ => ℕ) →
    List (ℕ × Entry κ ν) × AList fun _ : κ => ℕ
  | [], map => ([], map)
  | n :: entries, map =>
    if now ≥ n.2.createdAt && now - n.2.createdAt > maxAge then
      gcLoop now maxAge entries (map.erase n.2.key)
    else
      let rest := gcLoop now maxAge entries map
      (n :: rest.1, rest.2)

/-- Remove the entries that are too old. -/
def gc (c : IndexedCache κ ν) (now maxAge : UInt64) : IndexedCache κ ν :=
  let kept := gcLoop now maxAge c.entries c.map
  { c with entries := kept.1, map := kept.2 }

def size (c : IndexedCache κ ν) : ℕ := c.map.keys.length

end IndexedCache

/-- The entries without that of a key. -/
def LruCache.remove (c : LruCache κ ν) (key : κ) : LruCache κ ν :=
  ⟨c.maxSize, LruCache.without key c.entries, c.nodup.sublist (List.filter_sublist.map _)⟩

/-! ## Calls -/

/-- A call. -/
inductive CacheOp (κ ν : Type*) where
  | put (key : κ) (value : ν) (now : UInt64)
  | get (key : κ)
  | remove (key : κ)
  | gc (now maxAge : UInt64)

/-- A call on the list with its index, and what it returns: the cache, and the value of a `get`. -/
def IndexedCache.step (c : IndexedCache κ ν) : CacheOp κ ν → Option (IndexedCache κ ν × Option ν)
  | .put key value now => (c.put key value now).map fun c => (c, none)
  | .get key => c.get key
  | .remove key => (c.remove key).map fun c => (c, none)
  | .gc now maxAge => some (c.gc now maxAge, none)

/-- A call on the entries alone. -/
def LruCache.step (c : LruCache κ ν) : CacheOp κ ν → LruCache κ ν × Option ν
  | .put key value now => (c.put key value now, none)
  | .get key => c.get key
  | .remove key => (c.remove key, none)
  | .gc now maxAge => (c.gc now maxAge, none)

/-- Calls one after another, with what they return. -/
def IndexedCache.run (c : IndexedCache κ ν) :
    List (CacheOp κ ν) → Option (IndexedCache κ ν × List (Option ν))
  | [] => some (c, [])
  | op :: ops => do
    let (c, result) ← c.step op
    let (c, results) ← c.run ops
    some (c, result :: results)

def LruCache.run (c : LruCache κ ν) : List (CacheOp κ ν) → LruCache κ ν × List (Option ν)
  | [] => (c, [])
  | op :: ops =>
    let after := c.step op
    let rest := after.1.run ops
    (rest.1, after.2 :: rest.2)

namespace IndexedCache

variable {c : IndexedCache κ ν}

/-! ## The invariant -/

/-- **The list and its index**: the nodes are apart, and so are their keys; the index has the node of every
key, and nothing else. -/
structure Coherent (entries : List (ℕ × Entry κ ν)) (map : AList fun _ : κ => ℕ) : Prop where
  nodes : (entries.map Prod.fst).Nodup
  keys : (entries.map fun n => n.2.key).Nodup
  index : ∀ key it, map.lookup key = some it ↔ ∃ e, (it, e) ∈ entries ∧ e.key = key

/-- The entries of the list. -/
def contents (c : IndexedCache κ ν) : List (Entry κ ν) := c.entries.map Prod.snd

/-- What holds of a cache between two calls. -/
structure Wf (c : IndexedCache κ ν) : Prop where
  coherent : Coherent c.entries c.map
  /-- The next node is a new one. -/
  fresh : ∀ n ∈ c.entries, n.1 < c.nextNode

variable {entries pre suf : List (ℕ × Entry κ ν)} {map : AList fun _ : κ => ℕ}
  {n : ℕ × Entry κ ν}

lemma filter_ne_of_nodup {α β : Type*} [DecidableEq β] (f : α → β) {pre suf : List α} {a : α}
    (h : ((pre ++ a :: suf).map f).Nodup) :
    (pre ++ a :: suf).filter (fun x => f x ≠ f a) = pre ++ suf := by
  rw [List.map_append, List.map_cons, List.nodup_append, List.nodup_cons] at h
  obtain ⟨-, ⟨hsuf, -⟩, hpre⟩ := h
  have hkeep (l : List α) (hl : ∀ x ∈ l, f x ≠ f a) : l.filter (fun x => f x ≠ f a) = l :=
    List.filter_eq_self.2 fun x hx => decide_eq_true (hl x hx)
  rw [List.filter_append, List.filter_cons_of_neg (by simp), hkeep, hkeep]
  · exact fun x hx heq => hsuf (heq ▸ List.mem_map_of_mem hx)
  · exact fun x hx => hpre _ (List.mem_map_of_mem hx) _ List.mem_cons_self

lemma Coherent.deref (h : Coherent entries map) (hn : n ∈ entries) :
    deref entries n.1 = some n.2 := by
  have hfind : entries.find? (fun m => m.1 = n.1) = some n := by
    obtain ⟨pre, suf, rfl⟩ := List.append_of_mem hn
    have hnodes := h.nodes
    rw [List.map_append, List.map_cons, List.nodup_append] at hnodes
    rw [List.find?_append, List.find?_eq_none.2, Option.none_or, List.find?_cons_of_pos (by simp)]
    intro m hm
    simpa using hnodes.2.2 _ (List.mem_map_of_mem hm) _ List.mem_cons_self
  rw [IndexedCache.deref, hfind]
  rfl

/-- **A node leaves the list**, and its key the index. -/
lemma Coherent.erase (h : Coherent (pre ++ n :: suf) map) :
    Coherent (pre ++ suf) (map.erase n.2.key) := by
  have hsub : (pre ++ suf).Sublist (pre ++ n :: suf) :=
    List.Sublist.append_left (List.sublist_cons_self _ _) _
  refine ⟨h.nodes.sublist (hsub.map _), h.keys.sublist (hsub.map _), fun key it => ?_⟩
  have hothers := filter_ne_of_nodup (fun m : ℕ × Entry κ ν => m.2.key) h.keys
  by_cases hkey : key = n.2.key
  · rw [hkey, AList.lookup_erase]
    refine ⟨nofun, fun ⟨e, he, hsame⟩ => ?_⟩
    rw [← hothers, List.mem_filter] at he
    exact absurd hsame (of_decide_eq_true he.2)
  · rw [AList.lookup_erase_ne hkey, h.index]
    refine exists_congr fun e => and_congr_left fun hsame => ?_
    rw [← hothers, List.mem_filter, decide_eq_true_eq]
    exact (and_iff_left fun heq => hkey (hsame.symm.trans heq)).symm

/-- **A node joins the list** in front, and its key the index. -/
lemma Coherent.cons (h : Coherent entries map) (hnode : n.1 ∉ entries.map Prod.fst)
    (hkey : n.2.key ∉ entries.map fun m => m.2.key) :
    Coherent (n :: entries) (map.insert n.2.key n.1) := by
  refine ⟨List.nodup_cons.2 ⟨hnode, h.nodes⟩, List.nodup_cons.2 ⟨hkey, h.keys⟩, fun key it => ?_⟩
  by_cases hsame : key = n.2.key
  · rw [hsame, AList.lookup_insert]
    constructor
    · intro hit
      exact ⟨n.2, by rw [← Option.some.inj hit]; exact List.mem_cons_self, rfl⟩
    · rintro ⟨e, he, hek⟩
      rcases List.mem_cons.1 he with rfl | hold
      · rfl
      · exact absurd (List.mem_map.2 ⟨_, hold, hek⟩) hkey
  · rw [AList.lookup_insert_ne hsame, h.index]
    refine exists_congr fun e => and_congr_left fun hek => ?_
    rw [List.mem_cons]
    refine (or_iff_right ?_).symm
    rintro rfl
    exact hsame hek.symm

lemma Coherent.of_lookup (h : Coherent entries map) {map' : AList fun _ : κ => ℕ}
    (hsame : ∀ key, map'.lookup key = map.lookup key) : Coherent entries map' :=
  ⟨h.nodes, h.keys, fun key it => by rw [hsame, h.index]⟩

/-- **A node moves to the front**, and may get another value. -/
lemma Coherent.moveFront (h : Coherent (pre ++ n :: suf) map) {e : Entry κ ν}
    (hkey : e.key = n.2.key) : Coherent ((n.1, e) :: (pre ++ suf)) map := by
  have hmem : n ∈ pre ++ n :: suf := by simp
  have hnode : n.1 ∉ (pre ++ suf).map Prod.fst := by
    rw [← filter_ne_of_nodup Prod.fst h.nodes]
    simp
  have hkeys : e.key ∉ (pre ++ suf).map fun m => m.2.key := by
    rw [← filter_ne_of_nodup (fun m : ℕ × Entry κ ν => m.2.key) h.keys, hkey]
    simp
  refine (Coherent.cons (n := (n.1, e)) h.erase hnode hkeys).of_lookup fun key => ?_
  by_cases hsame : key = n.2.key
  · rw [hsame, hkey, AList.lookup_insert, h.index]
    exact ⟨n.2, hmem, rfl⟩
  · rw [hkey, AList.lookup_insert_ne hsame, AList.lookup_erase_ne hsame]

/-! ## The loops -/

/-- **Making room** keeps the first nodes of the list, and the index of them. -/
lemma evict_spec (maxSize : ℕ) (h : Coherent entries map) :
    Coherent (evict maxSize entries map).1 (evict maxSize entries map).2 ∧
      (evict maxSize entries map).1 = entries.take (maxSize - 1) := by
  fun_induction evict maxSize entries map with
  | case1 entries map hfull ih =>
    obtain ⟨front, last, rfl⟩ := (List.eq_nil_or_concat' entries).resolve_left hfull.2
    have hlen := hfull.1
    rw [List.length_append, List.length_singleton] at hlen
    simp only [List.dropLast_concat, List.getLast_append_singleton] at ih ⊢
    have hrest : Coherent front (map.erase last.2.key) := by
      simpa using @Coherent.erase _ _ _ front [] map last (by simpa using h)
    obtain ⟨hcoherent, htake⟩ := ih hrest
    refine ⟨hcoherent, ?_⟩
    rw [htake, List.take_append_of_le_length (by omega)]
  | case2 entries map hroom =>
    refine ⟨h, (List.take_of_length_le ?_).symm⟩
    change entries.length ≤ maxSize - 1
    by_contra hlong
    refine hroom ⟨by omega, ?_⟩
    rintro rfl
    simp at hlong

lemma gcLoop_spec (now maxAge : UInt64) (h : Coherent (pre ++ entries) map) :
    Coherent (pre ++ (gcLoop now maxAge entries map).1) (gcLoop now maxAge entries map).2 ∧
      (gcLoop now maxAge entries map).1 =
        entries.filter fun n => !LruCache.expired now maxAge n.2 := by
  induction entries generalizing pre map with
  | nil => exact ⟨h, rfl⟩
  | cons n entries ih =>
    rw [gcLoop]
    split
    next hold =>
      obtain ⟨hcoherent, hfilter⟩ := ih h.erase
      refine ⟨hcoherent, ?_⟩
      rw [hfilter, List.filter_cons_of_neg (by simpa [LruCache.expired] using hold)]
    next hyoung =>
      obtain ⟨hcoherent, hfilter⟩ := @ih (pre ++ [n]) map (by simpa using h)
      have hkeep : LruCache.expired now maxAge n.2 = false := Bool.eq_false_iff.2 hyoung
      refine ⟨by simpa using hcoherent, ?_⟩
      dsimp only
      rw [hfilter, List.filter_cons_of_pos (by simp [hkeep])]

/-! ## The calls -/

/-- The entries alone are those of the list. -/
structure Reflects (c : IndexedCache κ ν) (s : LruCache κ ν) : Prop where
  maxSize : s.maxSize = c.maxSize
  entries : s.entries = c.contents

variable {s : LruCache κ ν} {key : κ} {it : ℕ}

lemma Wf.split (hwf : c.Wf) (hs : c.Reflects s) (hit : c.map.lookup key = some it) :
    ∃ pre e suf, c.entries = pre ++ (it, e) :: suf ∧ e.key = key ∧ s.find key = some e := by
  obtain ⟨e, hmem, hkey⟩ := (hwf.coherent.index key it).1 hit
  obtain ⟨pre, suf, hsplit⟩ := List.append_of_mem hmem
  refine ⟨pre, e, suf, hsplit, hkey, ?_⟩
  have he : e ∈ s.entries := by
    rw [hs.entries]
    exact List.mem_map_of_mem hmem
  rw [← hkey]
  exact LruCache.find_of_mem he

lemma Wf.find_eq_none (hwf : c.Wf) (hs : c.Reflects s) (hnone : c.map.lookup key = none) :
    s.find key = none := by
  refine List.find?_eq_none.2 fun e he => ?_
  rw [hs.entries, contents, List.mem_map] at he
  obtain ⟨⟨it, e⟩, hmem, rfl⟩ := he
  intro hkey
  have hit := (hwf.coherent.index key it).2 ⟨e, hmem, of_decide_eq_true hkey⟩
  rw [hnone] at hit
  cases hit

lemma without_contents (hwf : c.Wf) (hs : c.Reflects s) {e : Entry κ ν}
    (hsplit : c.entries = pre ++ (it, e) :: suf) :
    LruCache.without e.key s.entries = (pre ++ suf).map Prod.snd := by
  have hkeys := hwf.coherent.keys
  have hmap : s.entries = pre.map Prod.snd ++ e :: suf.map Prod.snd := by
    rw [hs.entries, contents, hsplit, List.map_append, List.map_cons]
  rw [LruCache.without, hmap, List.map_append]
  refine filter_ne_of_nodup Entry.key ?_
  rw [hsplit] at hkeys
  simpa [Function.comp_def] using hkeys

lemma splice_eq (hwf : c.Wf) {e : Entry κ ν} (hsplit : c.entries = pre ++ (it, e) :: suf) :
    splice c.entries it = some ((it, e) :: (pre ++ suf)) := by
  have hmem : (it, e) ∈ c.entries := by simp [hsplit]
  have hnodes := hwf.coherent.nodes
  rw [splice, hwf.coherent.deref hmem, Option.map_some, hsplit]
  rw [hsplit] at hnodes
  rw [filter_ne_of_nodup Prod.fst hnodes]

omit [DecidableEq κ] in
lemma modify_cons {rest : List (ℕ × Entry κ ν)} (hnew : it ∉ rest.map Prod.fst) (e : Entry κ ν)
    (f : Entry κ ν → Entry κ ν) : modify ((it, e) :: rest) it f = (it, f e) :: rest := by
  have hrest : modify rest it f = rest := by
    refine (List.map_congr_left fun n hn => ?_).trans (List.map_id rest)
    exact if_neg fun heq : n.1 = it => hnew (heq ▸ List.mem_map_of_mem hn)
  simp only [modify, List.map_cons, if_true] at hrest ⊢
  rw [hrest]

lemma Wf.put (hwf : c.Wf) (hs : c.Reflects s) (key : κ) (value : ν) (now : UInt64) :
    ∃ c', c.put key value now = some c' ∧ c'.Wf ∧ c'.Reflects (s.put key value now) := by
  unfold IndexedCache.put
  cases hit : c.map.lookup key with
  | some it =>
    obtain ⟨pre, e, suf, hsplit, rfl, hfind⟩ := hwf.split hs hit
    have hnodes := hwf.coherent.nodes
    rw [hsplit] at hnodes
    have hnew : it ∉ (pre ++ suf).map Prod.fst := by
      rw [← filter_ne_of_nodup Prod.fst hnodes]
      simp
    have hcoherent := hwf.coherent
    rw [hsplit] at hcoherent
    dsimp only
    rw [splice_eq hwf hsplit, Option.map_some, modify_cons hnew, modify_cons hnew]
    refine ⟨_, rfl, ⟨hcoherent.moveFront rfl, fun n hn => ?_⟩, ?_⟩
    · rcases List.mem_cons.1 hn with rfl | hold
      · exact hwf.fresh (it, e) (by simp [hsplit])
      · exact hwf.fresh n (hsplit ▸ by
          rcases List.mem_append.1 hold with h | h <;> simp [h])
    · have hput : (s.put e.key value now).entries =
          ⟨e.key, value, now⟩ :: LruCache.without e.key s.entries ∧
          (s.put e.key value now).maxSize = s.maxSize := by
        unfold LruCache.put
        split
        · exact ⟨rfl, rfl⟩
        next hnone =>
          rw [hfind] at hnone
          cases hnone
      refine ⟨hput.2.trans hs.maxSize, ?_⟩
      rw [hput.1, without_contents hwf hs hsplit]
      rfl
  | none =>
    have hfind := hwf.find_eq_none hs hit
    obtain ⟨hcoherent, htake⟩ := evict_spec c.maxSize hwf.coherent
    have hsub : ∀ n ∈ (evict c.maxSize c.entries c.map).1, n ∈ c.entries := fun n hn =>
      List.mem_of_mem_take (htake ▸ hn)
    have hnode : c.nextNode ∉ (evict c.maxSize c.entries c.map).1.map Prod.fst := fun hmem => by
      obtain ⟨n, hn, heq⟩ := List.mem_map.1 hmem
      exact absurd (hwf.fresh n (hsub n hn)) (by omega)
    have hkey : key ∉ (evict c.maxSize c.entries c.map).1.map fun n => n.2.key := fun hmem => by
      obtain ⟨⟨it, e⟩, hn, hsame⟩ := List.mem_map.1 hmem
      have hold := (hwf.coherent.index key it).2 ⟨e, hsub _ hn, hsame⟩
      rw [hit] at hold
      cases hold
    refine ⟨_, rfl, ⟨hcoherent.cons (n := (c.nextNode, ⟨key, value, now⟩)) hnode hkey,
      fun n hn => ?_⟩, ?_⟩
    · rcases List.mem_cons.1 hn with rfl | hold
      · exact Nat.lt_succ_self _
      · exact Nat.lt_succ_of_lt (hwf.fresh n (hsub n hold))
    · have hput : (s.put key value now).entries =
          ⟨key, value, now⟩ :: s.entries.take (s.maxSize - 1) ∧
          (s.put key value now).maxSize = s.maxSize := by
        unfold LruCache.put
        split
        next hsome =>
          rw [hfind] at hsome
          cases hsome
        · exact ⟨rfl, rfl⟩
      refine ⟨hput.2.trans hs.maxSize, ?_⟩
      rw [hput.1, hs.entries, hs.maxSize, contents, contents, ← List.map_take, ← htake]
      rfl

lemma Wf.get (hwf : c.Wf) (hs : c.Reflects s) (key : κ) :
    ∃ c', c.get key = some (c', (s.get key).2) ∧ c'.Wf ∧ c'.Reflects (s.get key).1 := by
  unfold IndexedCache.get
  cases hit : c.map.lookup key with
  | some it =>
    obtain ⟨pre, e, suf, hsplit, rfl, hfind⟩ := hwf.split hs hit
    have hcoherent := hwf.coherent
    rw [hsplit] at hcoherent
    have hmoved := Coherent.moveFront hcoherent (e := e) rfl
    have hget : s.get e.key = (⟨s.maxSize, e :: LruCache.without e.key s.entries,
        LruCache.nodup_cons_without s.nodup e⟩, some e.value) := by
      unfold LruCache.get
      rw [hfind]
    have hfront : IndexedCache.deref ((it, e) :: (pre ++ suf)) it = some e :=
      hmoved.deref (n := (it, e)) List.mem_cons_self
    refine ⟨{ c with entries := (it, e) :: (pre ++ suf) }, ?_, ⟨hmoved, fun n hn => ?_⟩, ?_⟩
    · simp [splice_eq hwf hsplit, hfront, hget]
    · refine hwf.fresh n ?_
      rw [hsplit]
      simp only [List.mem_append, List.mem_cons] at hn ⊢
      tauto
    · rw [hget]
      refine ⟨hs.maxSize, ?_⟩
      dsimp only
      rw [without_contents hwf hs hsplit]
      rfl
  | none =>
    have hget : s.get key = (s, none) := by
      unfold LruCache.get
      rw [hwf.find_eq_none hs hit]
    rw [hget]
    exact ⟨c, rfl, hwf, hs⟩

lemma Wf.remove (hwf : c.Wf) (hs : c.Reflects s) (key : κ) :
    ∃ c', c.remove key = some c' ∧ c'.Wf ∧ c'.Reflects (s.remove key) := by
  unfold IndexedCache.remove
  cases hit : c.map.lookup key with
  | some it =>
    obtain ⟨pre, e, suf, hsplit, rfl, -⟩ := hwf.split hs hit
    have hcoherent := hwf.coherent
    rw [hsplit] at hcoherent
    have hderef : IndexedCache.deref c.entries it = some e :=
      hwf.coherent.deref (n := (it, e)) (by simp [hsplit])
    have hothers : c.entries.filter (fun n => n.1 ≠ it) = pre ++ suf := by
      rw [hsplit]
      exact filter_ne_of_nodup Prod.fst hcoherent.nodes
    dsimp only
    rw [hderef, Option.map_some, hothers]
    refine ⟨_, rfl, ⟨hcoherent.erase, fun n hn => hwf.fresh n ?_⟩, hs.maxSize, ?_⟩
    · rw [hsplit]
      simp only [List.mem_append, List.mem_cons] at hn ⊢
      tauto
    · exact without_contents hwf hs hsplit
  | none =>
    refine ⟨c, rfl, hwf, hs.maxSize, ?_⟩
    have hnone := List.find?_eq_none.1 (hwf.find_eq_none hs hit)
    rw [← hs.entries]
    exact List.filter_eq_self.2 fun e he => by simpa using hnone e he

lemma Wf.gc (hwf : c.Wf) (hs : c.Reflects s) (now maxAge : UInt64) :
    (c.gc now maxAge).Wf ∧ (c.gc now maxAge).Reflects (s.gc now maxAge) := by
  obtain ⟨hcoherent, hfilter⟩ := @gcLoop_spec _ _ _ c.entries [] c.map now maxAge hwf.coherent
  refine ⟨⟨hcoherent, fun n hn => ?_⟩, hs.maxSize, ?_⟩
  · rw [IndexedCache.gc, hfilter] at hn
    exact hwf.fresh n (List.mem_filter.1 hn).1
  · change s.entries.filter _ = (gcLoop now maxAge c.entries c.map).1.map Prod.snd
    rw [hfilter, hs.entries, contents, List.filter_map]
    rfl

/-- **Every call** uses no dangling position, returns what the call on the entries alone returns, and leaves
a list that has become what the entries become. -/
theorem step_refines (hwf : c.Wf) (hs : c.Reflects s) (op : CacheOp κ ν) :
    ∃ c', c.step op = some (c', (s.step op).2) ∧ c'.Wf ∧ c'.Reflects (s.step op).1 := by
  cases op with
  | put key value now =>
    obtain ⟨c', hput, hwf', hs'⟩ := hwf.put hs key value now
    exact ⟨c', by rw [IndexedCache.step, hput]; rfl, hwf', hs'⟩
  | get key => exact hwf.get hs key
  | remove key =>
    obtain ⟨c', hremove, hwf', hs'⟩ := hwf.remove hs key
    exact ⟨c', by rw [IndexedCache.step, hremove]; rfl, hwf', hs'⟩
  | gc now maxAge => exact ⟨c.gc now maxAge, rfl, hwf.gc hs now maxAge⟩

lemma run_refines (hwf : c.Wf) (hs : c.Reflects s) (ops : List (CacheOp κ ν)) :
    ∃ c', c.run ops = some (c', (s.run ops).2) ∧ c'.Wf ∧ c'.Reflects (s.run ops).1 := by
  induction ops generalizing c s with
  | nil => exact ⟨c, rfl, hwf, hs⟩
  | cons op ops ih =>
    obtain ⟨c₁, hstep, hwf₁, hs₁⟩ := step_refines hwf hs op
    obtain ⟨c₂, hrun, hwf₂, hs₂⟩ := ih hwf₁ hs₁
    exact ⟨c₂, by simp [IndexedCache.run, LruCache.run, hstep, hrun], hwf₂, hs₂⟩

end IndexedCache

/-! ## The order of the entries -/

/-- A call puts or gets a key. -/
def CacheOp.uses (key : κ) : CacheOp κ ν → Bool
  | .put k _ _ => k = key
  | .get k => k = key
  | _ => false

/-- The number of the last call that put or got a key, counted from one; zero if there is none. -/
def lastUse (ops : List (CacheOp κ ν)) (key : κ) : ℕ :=
  ops.length - ops.reverse.findIdx (CacheOp.uses key)

lemma lastUse_le (ops : List (CacheOp κ ν)) (key : κ) : lastUse ops key ≤ ops.length :=
  Nat.sub_le _ _

lemma lastUse_concat (ops : List (CacheOp κ ν)) (op : CacheOp κ ν) (key : κ) :
    lastUse (ops ++ [op]) key = if op.uses key then ops.length + 1 else lastUse ops key := by
  rw [lastUse, List.reverse_concat, List.findIdx_cons, List.length_append, List.length_singleton]
  cases op.uses key with
  | true => simp
  | false =>
    simp only [cond_false, Bool.false_eq_true, if_false]
    rw [lastUse]
    omega

namespace LruCache

variable {c : LruCache κ ν}

lemma run_concat (c : LruCache κ ν) (ops : List (CacheOp κ ν)) (op : CacheOp κ ν) :
    (c.run (ops ++ [op])).1 = ((c.run ops).1.step op).1 := by
  induction ops generalizing c with
  | nil => rfl
  | cons first ops ih => exact ih (c.step first).1

/-- The entries are ordered by the last use of their keys. -/
def Recent (ops : List (CacheOp κ ν)) (entries : List (Entry κ ν)) : Prop :=
  entries.Pairwise fun a b => lastUse ops b.key < lastUse ops a.key

lemma Recent.unused {ops : List (CacheOp κ ν)} {entries kept : List (Entry κ ν)}
    (h : Recent ops entries) (hkept : kept.Sublist entries) {op : CacheOp κ ν}
    (hunused : ∀ e ∈ kept, op.uses e.key = false) : Recent (ops ++ [op]) kept := by
  refine (h.sublist hkept).imp_of_mem fun {a b} ha hb hlt => ?_
  rw [lastUse_concat, lastUse_concat, hunused a ha, hunused b hb]
  exact hlt

lemma Recent.used {ops : List (CacheOp κ ν)} {entries kept : List (Entry κ ν)}
    (h : Recent ops entries) (hkept : kept.Sublist entries) {op : CacheOp κ ν} {e : Entry κ ν}
    (hused : op.uses e.key = true) (hunused : ∀ e ∈ kept, op.uses e.key = false) :
    Recent (ops ++ [op]) (e :: kept) := by
  refine List.pairwise_cons.2 ⟨fun b hb => ?_, h.unused hkept hunused⟩
  rw [lastUse_concat, lastUse_concat, hused, hunused b hb, if_pos rfl, if_neg Bool.false_ne_true]
  exact Nat.lt_succ_of_le (lastUse_le ops b.key)

lemma put_entries_of_new {key : κ} (hnew : c.find key = none) (value : ν) (now : UInt64) :
    (c.put key value now).entries = ⟨key, value, now⟩ :: c.entries.take (c.maxSize - 1) := by
  unfold LruCache.put
  split
  next hold =>
    rw [hnew] at hold
    cases hold
  · rfl

lemma maxSize_step (c : LruCache κ ν) (op : CacheOp κ ν) : (c.step op).1.maxSize = c.maxSize := by
  cases op with
  | put key value now =>
    unfold step LruCache.put
    dsimp only
    split <;> rfl
  | get key =>
    unfold step LruCache.get
    dsimp only
    split <;> rfl
  | remove key => rfl
  | gc now maxAge => rfl

/-- **A call keeps the order**: what it uses goes to the front. -/
theorem Recent.step {ops : List (CacheOp κ ν)} (h : Recent ops c.entries) (op : CacheOp κ ν) :
    Recent (ops ++ [op]) (c.step op).1.entries := by
  have hothers {key k : κ} (hne : k ≠ key) (value : ν) (now : UInt64) :
      (CacheOp.put key value now).uses k = false ∧ (CacheOp.get key : CacheOp κ ν).uses k = false :=
    ⟨decide_eq_false hne.symm, decide_eq_false hne.symm⟩
  have hwithout {key : κ} {e : Entry κ ν} (he : e ∈ without key c.entries) : e.key ≠ key :=
    of_decide_eq_true (List.mem_filter.1 he).2
  have hmissing {key : κ} (hnone : c.find key = none) {e : Entry κ ν} (he : e ∈ c.entries) :
      e.key ≠ key := fun heq => List.find?_eq_none.1 hnone e he (decide_eq_true heq)
  cases op with
  | put key value now =>
    cases hfind : c.find key with
    | some e =>
      have hput : (c.put key value now).entries = ⟨key, value, now⟩ :: without key c.entries := by
        unfold LruCache.put
        split
        · rfl
        next hnone =>
          rw [hfind] at hnone
          cases hnone
      change Recent _ (c.put key value now).entries
      rw [hput]
      exact h.used List.filter_sublist (decide_eq_true rfl) fun e he =>
        (hothers (hwithout he) value now).1
    | none =>
      change Recent _ (c.put key value now).entries
      rw [put_entries_of_new hfind]
      exact h.used (List.take_sublist _ _) (decide_eq_true rfl) fun e he =>
        (hothers (hmissing hfind (List.mem_of_mem_take he)) value now).1
  | get key =>
    change Recent _ (c.get key).1.entries
    unfold LruCache.get
    split
    next hnone =>
      exact h.unused (List.Sublist.refl _) fun e he => decide_eq_false (hmissing hnone he).symm
    next e hfind =>
      have hkey := find_key hfind
      exact h.used List.filter_sublist (decide_eq_true hkey.symm) fun e' he' =>
        decide_eq_false (hkey ▸ hwithout he').symm
  | remove key => exact h.unused List.filter_sublist fun _ _ => rfl
  | gc now maxAge => exact h.unused List.filter_sublist fun _ _ => rfl

lemma length_cons_without_le {key : κ} {e : Entry κ ν} (h : c.find key = some e) (e' : Entry κ ν) :
    (e' :: without key c.entries).length ≤ c.entries.length := by
  rw [List.length_cons, Nat.succ_le_iff, without, List.length_filter_lt_length_iff_exists]
  exact ⟨e, find_mem h, by simp [find_key h]⟩

lemma length_step_le (h : c.entries.length ≤ max 1 c.maxSize) (op : CacheOp κ ν) :
    (c.step op).1.entries.length ≤ max 1 c.maxSize := by
  cases op with
  | put key value now =>
    change (c.put key value now).entries.length ≤ _
    unfold LruCache.put
    split
    next e hfind => exact le_trans (length_cons_without_le hfind _) h
    · rw [List.length_cons, List.length_take]
      omega
  | get key =>
    change (c.get key).1.entries.length ≤ _
    unfold LruCache.get
    split
    · exact h
    next e hfind =>
      obtain rfl := find_key hfind
      exact le_trans (length_cons_without_le hfind _) h
  | remove key => exact le_trans (List.length_filter_le _ _) h
  | gc now maxAge => exact le_trans (List.length_filter_le _ _) h

/-- **The entries are ordered by their last use**, and no more than the limit, or one if it is zero. -/
theorem recent_run (maxSize : ℕ) (ops : List (CacheOp κ ν)) :
    Recent ops ((empty maxSize).run ops).1.entries ∧
      ((empty maxSize).run ops).1.entries.length ≤ max 1 maxSize ∧
      ((empty maxSize).run ops).1.maxSize = maxSize := by
  induction ops using List.reverseRecOn with
  | nil => exact ⟨List.Pairwise.nil, Nat.zero_le _, rfl⟩
  | append_singleton ops op ih =>
    obtain ⟨hrecent, hlength, hmax⟩ := ih
    rw [run_concat]
    have hbound : ((empty maxSize).run ops).1.entries.length ≤
        max 1 ((empty maxSize).run ops).1.maxSize := by rwa [hmax]
    refine ⟨hrecent.step op, ?_, (maxSize_step _ op).trans hmax⟩
    have hstep := length_step_le hbound op
    rwa [hmax] at hstep

end LruCache

/-! ## The cache after some calls -/

namespace IndexedCache

variable {c : IndexedCache κ ν}

/-- The constructor. -/
def empty (maxSize : ℕ) : IndexedCache κ ν where
  maxSize := maxSize

/-- **What the cache is after some calls**, in terms of the calls. -/
structure Refines (maxSize : ℕ) (ops : List (CacheOp κ ν)) (c : IndexedCache κ ν) : Prop where
  /-- The list has the entries of the reference. -/
  contents : c.contents = ((LruCache.empty maxSize).run ops).1.entries
  /-- The index and the list have the same keys, each once, and the index has their nodes. -/
  coherent : Coherent c.entries c.map
  sameKeys : c.map.keys.Perm (c.contents.map Entry.key)
  distinct : (c.contents.map Entry.key).Nodup
  size_le : c.size ≤ max 1 maxSize
  /-- The list is ordered by the last use of the keys. -/
  recent : LruCache.Recent ops c.contents
  /-- A new key for which there is no room drives out those that were used least recently. -/
  evicts : ∀ key value now c', c.map.lookup key = none → maxSize ≤ c.size →
    c.put key value now = some c' → ∃ kept gone, c.contents = kept ++ gone ∧
      c'.contents = ⟨key, value, now⟩ :: kept ∧ kept.length = maxSize - 1 ∧
      ∀ a ∈ kept, ∀ b ∈ gone, lastUse ops b.key < lastUse ops a.key
  /-- A new key for which there is room drives out none. -/
  evictsNone : ∀ key value now c', c.map.lookup key = none → c.size < maxSize →
    c.put key value now = some c' → c'.contents = ⟨key, value, now⟩ :: c.contents
  /-- The entries that are too old are removed, wherever they are. -/
  gc : ∀ now maxAge, (c.gc now maxAge).contents =
    c.contents.filter fun e => ¬ (e.createdAt ≤ now ∧ maxAge < now - e.createdAt)

lemma Coherent.keys_perm {entries : List (ℕ × Entry κ ν)} {map : AList fun _ : κ => ℕ}
    (h : Coherent entries map) : map.keys.Perm ((entries.map Prod.snd).map Entry.key) := by
  have hkeys := h.keys
  rw [List.map_map]
  refine (List.perm_ext_iff_of_nodup map.keys_nodup hkeys).2 fun key => ?_
  rw [← AList.mem_keys, ← AList.lookup_isSome, Option.isSome_iff_exists]
  constructor
  · rintro ⟨it, hit⟩
    obtain ⟨e, he, hkey⟩ := (h.index key it).1 hit
    exact List.mem_map.2 ⟨_, he, hkey⟩
  · intro hmem
    obtain ⟨⟨it, e⟩, he, hkey⟩ := List.mem_map.1 hmem
    exact ⟨it, (h.index key it).2 ⟨e, he, hkey⟩⟩

lemma Wf.put_new {s : LruCache κ ν} (hwf : c.Wf) (hs : c.Reflects s) {key : κ} {value : ν}
    {now : UInt64} {c' : IndexedCache κ ν} (hnew : c.map.lookup key = none)
    (hput : c.put key value now = some c') :
    c'.contents = ⟨key, value, now⟩ :: c.contents.take (c.maxSize - 1) := by
  obtain ⟨c'', hput', -, hs'⟩ := hwf.put hs key value now
  obtain rfl := Option.some.inj (hput.symm.trans hput')
  rw [← hs'.entries, LruCache.put_entries_of_new (hwf.find_eq_none hs hnew), hs.entries, hs.maxSize]

/-- **The cache refines its reference**: every sequence of calls has an outcome, in which the calls have
returned what they return on the entries alone.

**Proof sketch.** A call finds its node by the index, and the list loses or gains the node together with the
index. -/
theorem refines_run (maxSize : ℕ) (ops : List (CacheOp κ ν)) :
    ∃ c, (empty maxSize).run ops = some (c, ((LruCache.empty maxSize).run ops).2) ∧
      c.Refines maxSize ops := by
  have hempty : (empty maxSize : IndexedCache κ ν).Wf :=
    ⟨⟨List.nodup_nil, List.nodup_nil, fun _ _ => ⟨nofun, nofun⟩⟩, nofun⟩
  have hreflects : (empty maxSize : IndexedCache κ ν).Reflects (LruCache.empty maxSize) := ⟨rfl, rfl⟩
  obtain ⟨c, hrun, hwf, hs⟩ := run_refines hempty hreflects ops
  obtain ⟨hrecent, hlength, hmax⟩ := LruCache.recent_run maxSize ops
  have hlimit : c.maxSize = maxSize := hs.maxSize.symm.trans hmax
  have hsize : c.size = c.contents.length := by
    rw [size, hwf.coherent.keys_perm.length_eq, List.length_map]
    rfl
  rw [hs.entries] at hrecent hlength
  refine ⟨c, hrun, {
    contents := hs.entries.symm
    coherent := hwf.coherent
    sameKeys := hwf.coherent.keys_perm
    distinct := hwf.coherent.keys_perm.nodup_iff.1 c.map.keys_nodup
    size_le := hsize ▸ hlength
    recent := hrecent
    evicts := ?_
    evictsNone := ?_
    gc := ?_ }⟩
  · intro key value now c' hnew hfull hput
    have hsplit : c.contents.take (maxSize - 1) ++ c.contents.drop (maxSize - 1) = c.contents :=
      List.take_append_drop _ _
    refine ⟨_, _, hsplit.symm, hlimit ▸ hwf.put_new hs hnew hput, ?_, ?_⟩
    · rw [List.length_take]
      omega
    · rw [← hsplit] at hrecent
      exact (List.pairwise_append.1 hrecent).2.2
  · intro key value now c' hnew hroom hput
    rw [hwf.put_new hs hnew hput, List.take_of_length_le (by omega)]
  · intro now maxAge
    rw [← (hwf.gc hs now maxAge).2.entries, ← hs.entries]
    refine List.filter_congr fun e _ => ?_
    rw [LruCache.expired, ← Bool.decide_and, decide_not]

end IndexedCache

end HyperDHT.Handlers
