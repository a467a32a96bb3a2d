import Mathlib.Data.List.Nodup
import Mathlib.Tactic.Common

/-!
# The cache of stored values

The cache with a bounded number of entries and an age limit (`lru_cache.hpp`). A lookup moves an
entry to the front, an insertion into a full cache drops entries from the back, and the garbage
collection drops what is too old.

## Main definitions

* `Handlers.LruCache` — the entries, the newest first, with different keys.
* `Handlers.LruCache.find`, `get`, `put`, `gc` — the code.

## Main results

* `Handlers.LruCache.find_get` — a lookup changes the order of the entries and nothing else.
* `Handlers.LruCache.find_put_self`, `find_put_of_ne`, `find_gc` — what the cache holds under a key
  after each operation.

## Design

The source keeps a list of entries and a map from keys to positions in it. Here the list is all, and
a field of the structure says that its keys are different.
-/

set_option autoImplicit false

namespace HyperDHT.Handlers

/-- An entry: its key, its value and the time it was written. -/
structure Entry (κ ν : Type*) where
  key : κ
  value : ν
  createdAt : UInt64
  deriving DecidableEq

/-- The cache. -/
structure LruCache (κ ν : Type*) where
  maxSize : ℕ
  /-- The entries, the newest first. -/
  entries : List (Entry κ ν)
  nodup : (entries.map Entry.key).Nodup

namespace LruCache

variable {κ ν : Type*} [DecidableEq κ]

/-- An empty cache. -/
def empty (maxSize : ℕ) : LruCache κ ν := ⟨maxSize, [], List.nodup_nil⟩

/-- The entry with the key. -/
def find (c : LruCache κ ν) (key : κ) : Option (Entry κ ν) :=
  c.entries.find? fun e => e.key = key

/-- The entries without that of a key. -/
def without (key : κ) (entries : List (Entry κ ν)) : List (Entry κ ν) :=
  entries.filter fun e => e.key ≠ key

lemma nodup_cons_without {entries : List (Entry κ ν)} (h : (entries.map Entry.key).Nodup)
    (e : Entry κ ν) : ((e :: without e.key entries).map Entry.key).Nodup := by
  rw [List.map_cons, List.nodup_cons]
  refine ⟨?_, h.sublist (List.filter_sublist.map _)⟩
  simp [without]

lemma nodup_cons_take {entries : List (Entry κ ν)} (h : (entries.map Entry.key).Nodup)
    {e : Entry κ ν} (hnew : entries.find? (fun e' => e'.key = e.key) = none) (n : ℕ) :
    ((e :: entries.take n).map Entry.key).Nodup := by
  rw [List.map_cons, List.nodup_cons]
  refine ⟨fun hmem => ?_, h.sublist ((List.take_sublist n entries).map _)⟩
  obtain ⟨e', he', hkey⟩ := List.mem_map.1 hmem
  simpa [hkey] using List.find?_eq_none.1 hnew e' (List.mem_of_mem_take he')

/-- Look an entry up; it becomes the newest. -/
def get (c : LruCache κ ν) (key : κ) : LruCache κ ν × Option ν :=
  match c.find key with
  | none => (c, none)
  | some e => (⟨c.maxSize, e :: without e.key c.entries, nodup_cons_without c.nodup e⟩, some e.value)

/-- Write an entry, which becomes the newest. If it has to be added, the oldest entries are dropped
until fewer than the limit are left. -/
def put (c : LruCache κ ν) (key : κ) (value : ν) (now : UInt64) : LruCache κ ν :=
  match h : c.find key with
  | some _ =>
    ⟨c.maxSize, ⟨key, value, now⟩ :: without key c.entries,
      nodup_cons_without c.nodup ⟨key, value, now⟩⟩
  | none =>
    ⟨c.maxSize, ⟨key, value, now⟩ :: c.entries.take (c.maxSize - 1),
      nodup_cons_take (e := ⟨key, value, now⟩) c.nodup h (c.maxSize - 1)⟩

/-- An entry is older than the limit. -/
def expired (now maxAge : UInt64) (e : Entry κ ν) : Bool :=
  now ≥ e.createdAt && now - e.createdAt > maxAge

/-- Drop the entries that are too old. -/
def gc (c : LruCache κ ν) (now maxAge : UInt64) : LruCache κ ν :=
  ⟨c.maxSize, c.entries.filter fun e => !expired now maxAge e,
    c.nodup.sublist (List.filter_sublist.map _)⟩

/-! ## What the cache holds under a key -/

lemma find_key {c : LruCache κ ν} {key : κ} {e : Entry κ ν} (h : c.find key = some e) :
    e.key = key := by
  simpa using List.find?_some h

lemma find_mem {c : LruCache κ ν} {key : κ} {e : Entry κ ν} (h : c.find key = some e) :
    e ∈ c.entries :=
  List.mem_of_find?_eq_some h

lemma find_of_mem {c : LruCache κ ν} {e : Entry κ ν} (h : e ∈ c.entries) :
    c.find e.key = some e := by
  obtain ⟨maxSize, entries, hnodup⟩ := c
  simp only at h
  simp only [find]
  induction entries with
  | nil => simp at h
  | cons first entries ih =>
    rw [List.map_cons, List.nodup_cons] at hnodup
    rcases List.mem_cons.1 h with rfl | hmem
    · simp
    · have hne : first.key ≠ e.key := fun heq => hnodup.1 (heq ▸ List.mem_map_of_mem hmem)
      rw [List.find?_cons_of_neg (by simpa using hne)]
      exact ih hnodup.2 hmem

lemma find?_cons_without {entries : List (Entry κ ν)} {e : Entry κ ν} {key : κ}
    (h : e.key ≠ key) :
    (e :: without e.key entries).find? (fun e' => e'.key = key) =
      entries.find? (fun e' => e'.key = key) := by
  rw [List.find?_cons_of_neg (by simpa using h), without, List.find?_filter]
  congr 1
  funext e'
  by_cases hkey : e'.key = key
  · simp [hkey, Ne.symm h]
  · simp [hkey]

/-- **A lookup** changes the order of the entries and nothing else. -/
theorem find_get (c : LruCache κ ν) (key k : κ) : (c.get key).1.find k = c.find k := by
  unfold get
  split
  · rfl
  · next e he =>
    by_cases hk : e.key = k
    · have hkey : key = k := (find_key he).symm.trans hk
      rw [← hkey, he]
      simp [find, find_key he]
    · exact find?_cons_without hk

lemma get_eq (c : LruCache κ ν) (key : κ) : (c.get key).2 = (c.find key).map Entry.value := by
  unfold get
  split
  · next h => simp [h]
  · next e h => simp [h]

/-- **A write** is found under its key. -/
theorem find_put_self (c : LruCache κ ν) (key : κ) (value : ν) (now : UInt64) :
    (c.put key value now).find key = some ⟨key, value, now⟩ := by
  unfold put
  split <;> simp [find]

/-- A write of a key that is present changes nothing under the other keys; one that adds an entry
may drop others. -/
theorem find_put_of_ne (c : LruCache κ ν) {key k : κ} (h : key ≠ k) (value : ν) (now : UInt64) :
    (c.put key value now).find k = c.find k ∨
      (c.put key value now).find k = none ∧ c.find key = none := by
  unfold put
  split
  · exact .inl (find?_cons_without h)
  · next hnone =>
    have hcons : find ⟨c.maxSize, ⟨key, value, now⟩ :: c.entries.take (c.maxSize - 1),
        nodup_cons_take (e := ⟨key, value, now⟩) c.nodup hnone (c.maxSize - 1)⟩ k =
        (c.entries.take (c.maxSize - 1)).find? fun e => e.key = k :=
      List.find?_cons_of_neg (by simpa using h)
    rw [hcons]
    cases htake : (c.entries.take (c.maxSize - 1)).find? fun e => e.key = k with
    | none => exact .inr ⟨rfl, hnone⟩
    | some e =>
      have hkey : e.key = k := by simpa using List.find?_some htake
      have hmem := List.mem_of_mem_take (List.mem_of_find?_eq_some htake)
      exact .inl (hkey ▸ (find_of_mem hmem).symm)

/-- **The garbage collection** drops the entry of a key exactly when it is too old. -/
theorem find_gc (c : LruCache κ ν) (now maxAge : UInt64) (key : κ) :
    (c.gc now maxAge).find key = (c.find key).filter fun e => !expired now maxAge e := by
  cases hfind : c.find key with
  | none =>
    rw [find, List.find?_eq_none] at hfind
    simp only [Option.filter_none]
    refine List.find?_eq_none.2 fun e he => hfind e (List.mem_of_mem_filter he)
  | some e =>
    have hkey := find_key hfind
    cases hexpired : expired now maxAge e with
    | false =>
      have hmem : e ∈ (c.gc now maxAge).entries := by
        simp [gc, find_mem hfind, hexpired]
      rw [← hkey, find_of_mem hmem]
      simp [Option.filter, hexpired]
    | true =>
      have hnone : (c.gc now maxAge).find key = none := by
        refine List.find?_eq_none.2 fun e' he' hkey' => ?_
        obtain ⟨hmem', hkept⟩ := List.mem_filter.1 he'
        have hsame : c.find key = some e' := by
          rw [← show e'.key = key by simpa using hkey']
          exact find_of_mem hmem'
        rw [hfind] at hsame
        rw [← Option.some.inj hsame, hexpired] at hkept
        simp at hkept
      simp [hnone, Option.filter, hexpired]

end LruCache

end HyperDHT.Handlers
