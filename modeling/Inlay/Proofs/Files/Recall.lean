import Mathlib.Data.List.Induction
import Inlay.Proofs.Files.Encoding
import Inlay.Proofs.Files.Storage

set_option autoImplicit false

/-! # What a bucket remembers

A bucket is opened by its name, through a cache or through any copy of it, and all handles that were
got on one name are handles on the same entries. This file follows histories of requests through
any number of handles. What a handle finds under a key is what was last set there through some
handle on the same name, and only in the version asked for (`recall_last`): neither older versions
nor other buckets come in.

That handles share their entries is itself a fact about how they are kept. A cache has one shelf for
each name, which is put up when the name is first asked for, and a handle is a hold on a shelf
(`Shelves`). Answers are the same as by name (`byShelf_answers`), since no two names have one shelf.
-/

namespace Inlay

namespace Cache

/-! ## Requests -/

/-- Through what a bucket is opened. -/
inductive Opener where
  | cache
  /-- A copy of the cache. -/
  | copy (n : Nat)
  /-- A cache that keeps nothing. -/
  | null

/-- A use of a cache. Handles are numbered in the order in which they were got. -/
inductive Request where
  | bucket (opener : Opener) (name : String)
  | set (handle : Nat) (key version : String) (bytes : ByteArray)
  | setText (handle : Nat) (key version text : String)
  | get (handle : Nat) (key version : String)
  | getText (handle : Nat) (key version : String)

/-- What comes of a request. -/
inductive Answer where
  | handle (n : Nat)
  | done
  | bytes (found : Option ByteArray)
  | text (found : Option String)

/-- A way to keep buckets of bytes. -/
structure Keeping where
  State : Type
  Handle : Type
  start : State
  /-- The handle on a bucket that keeps nothing. -/
  null : Handle
  bucket : State → String → State × Handle
  set : State → Handle → String → String → ByteArray → State
  get? : State → Handle → String → String → Option ByteArray

namespace Keeping

variable (k : Keeping)

/-- Kept bytes, and the handles that were got on them. -/
structure Desk where
  state : k.State := k.start
  handles : List k.Handle := []

namespace Desk

variable {k : Keeping} (d : k.Desk)

/-- The handle with a number. -/
def handle (n : Nat) : k.Handle := d.handles[n]?.getD k.null

/-- Answer a request. -/
def serve : Request → k.Desk × Answer
  | .bucket .null _ => ({ d with handles := d.handles ++ [k.null] }, .handle d.handles.length)
  | .bucket _ name =>
    let (state, handle) := k.bucket d.state name
    (⟨state, d.handles ++ [handle]⟩, .handle d.handles.length)
  | .set n key version bytes =>
    ({ d with state := k.set d.state (d.handle n) key version bytes }, .done)
  | .setText n key version text =>
    ({ d with state := k.set d.state (d.handle n) key version text.toUTF8 }, .done)
  | .get n key version => (d, .bytes (k.get? d.state (d.handle n) key version))
  | .getText n key version =>
    (d, .text ((k.get? d.state (d.handle n) key version).bind fun bytes => String.fromUTF8? bytes))

/-- The answers to some requests. -/
def answers (d : k.Desk) : List Request → List Answer
  | [] => []
  | r :: rest => (d.serve r).2 :: answers (d.serve r).1 rest

/-- What is kept after some requests. -/
def after (d : k.Desk) (history : List Request) : k.Desk :=
  history.foldl (fun d r => (d.serve r).1) d

/-- One more handle has the next number; the others keep theirs. -/
theorem handle_concat (d : k.Desk) (state : k.State) (last : k.Handle) (n : Nat) :
    (Desk.mk state (d.handles ++ [last])).handle n =
      if n = d.handles.length then last else d.handle n := by
  unfold handle
  rw [List.getElem?_append]
  split_ifs with hlt heq heq
  · exact absurd heq (Nat.ne_of_lt hlt)
  · rfl
  · subst heq
    simp
  · have hgt : d.handles.length < n := by omega
    rw [List.getElem?_eq_none (by simpa using by omega), List.getElem?_eq_none (by omega)]

theorem after_concat (history : List Request) (r : Request) :
    d.after (history ++ [r]) = ((d.after history).serve r).1 := by
  simp [after]

/-- What a request is answered hangs on what was kept before it. -/
theorem getElem?_answers (d : k.Desk) (history : List Request) (r : Request)
    (rest : List Request) :
    (d.answers (history ++ r :: rest))[history.length]? = some ((d.after history).serve r).2 := by
  induction history generalizing d with
  | nil => rfl
  | cons r' history ih =>
      rw [List.cons_append, answers, List.length_cons, List.getElem?_cons_succ, ih]
      rfl

end Desk

end Keeping

/-- Buckets are kept by their names. -/
abbrev byName : Keeping where
  State := Cache
  Handle := Bucket
  start := {}
  null := .null
  bucket c name := (c, .named name)
  set c b := c.set b
  get? c b := c.get? b

/-! Texts are kept and found as the cache itself does it. -/

theorem serve_setText (d : byName.Desk) (n : Nat) (key version text : String) :
    (d.serve (.setText n key version text)).1 =
      { d with state := d.state.setText (d.handle n) key version text } := rfl

theorem serve_getText (d : byName.Desk) (n : Nat) (key version : String) :
    (d.serve (.getText n key version)).2 =
      .text (d.state.getText? (d.handle n) key version) := rfl

/-! ## The last set -/

/-- The bucket that is got by opening a name. -/
def Opener.bucket : Opener → String → Bucket
  | .null, _ => .null
  | _, name => .named name

/-- The buckets that were opened in a history, in order. -/
def opened (history : List Request) : List Bucket :=
  history.filterMap fun
    | .bucket opener name => some (opener.bucket name)
    | _ => none

/-- What a request that follows a history stores, in which bucket and under which key. -/
def Request.stores? (history : List Request) : Request → Option (Option Bucket × String × Stored)
  | .set n key version bytes => some ((opened history)[n]?, key, ⟨version, bytes⟩)
  | .setText n key version text => some ((opened history)[n]?, key, ⟨version, text.toUTF8⟩)
  | _ => none

/-- Whether this is what was last set in a history under a key, through a handle on a name. -/
inductive LastSet (name key : String) (stored : Stored) : List Request → Prop where
  | now {history : List Request} {r : Request}
    (h : r.stores? history = some (some (.named name), key, stored)) :
    LastSet name key stored (history ++ [r])
  | before {history : List Request} {r : Request} (h : LastSet name key stored history)
    (hr : ∀ later, r.stores? history ≠ some (some (.named name), key, later)) :
    LastSet name key stored (history ++ [r])

variable {name key version : String} {stored : Stored} {history : List Request}

theorem not_lastSet_nil : ¬ LastSet name key stored [] := by
  generalize h : ([] : List Request) = history
  intro hl
  cases hl <;> simp at h

theorem lastSet_concat {r : Request} : LastSet name key stored (history ++ [r]) ↔
    r.stores? history = some (some (.named name), key, stored) ∨
      LastSet name key stored history ∧
        ∀ later, r.stores? history ≠ some (some (.named name), key, later) := by
  constructor
  · generalize h : history ++ [r] = whole
    intro hl
    cases hl with
    | now hs =>
        obtain ⟨rfl, hr⟩ := List.append_inj' h rfl
        cases hr
        exact .inl hs
    | before hl hs =>
        obtain ⟨rfl, hr⟩ := List.append_inj' h rfl
        cases hr
        exact .inr ⟨hl, hs⟩
  · rintro (hs | ⟨hl, hs⟩)
    · exact .now hs
    · exact .before hl hs

/-! ## What is kept by name -/

/-- The desk of a new cache after a history. -/
abbrev kept (history : List Request) : byName.Desk := Keeping.Desk.after {} history

theorem kept_handles (history : List Request) : (kept history).handles = opened history := by
  induction history using List.reverseRecOn with
  | nil => rfl
  | append_singleton history r ih =>
      rw [kept, Keeping.Desk.after_concat, opened, List.filterMap_append]
      cases r with
      | bucket opener name => cases opener <;> exact congrArg (· ++ _) ih
      | _ => exact ih.trans (List.append_nil _).symm

theorem find?_set_handle (c : Cache) (b : Option Bucket) (key' version' : String)
    (bytes : ByteArray) : (c.set (b.getD .null) key' version' bytes).find? name key =
      if b = some (.named name) ∧ key' = key then some ⟨version', bytes⟩ else c.find? name key := by
  match b with
  | none => simp [set]
  | some .null => simp [set]
  | some (.named name') =>
      rw [Option.getD_some, find?_set]
      simp only [Option.some.injEq, Bucket.named.injEq, eq_comm]

/-- One more request changes what is found under a key only if it stores something there. -/
theorem kept_concat_find? (history : List Request) (r : Request) (name key : String) :
    (kept (history ++ [r])).state.find? name key =
      match r.stores? history with
      | some (b, key', stored) =>
        if b = some (.named name) ∧ key' = key then some stored
        else (kept history).state.find? name key
      | none => (kept history).state.find? name key := by
  rw [kept, Keeping.Desk.after_concat]
  cases r with
  | bucket opener other => cases opener <;> rfl
  | set n key' version' bytes =>
      rw [Request.stores?, ← kept_handles]
      exact find?_set_handle _ _ _ _ _
  | setText n key' version' text =>
      rw [Request.stores?, ← kept_handles]
      exact find?_set_handle _ _ _ _ _
  | get n key' version' => rfl
  | getText n key' version' => rfl

/-- **A bucket holds what was last set in it.** -/
theorem kept_find? (history : List Request) (name key : String) (stored : Stored) :
    (kept history).state.find? name key = some stored ↔ LastSet name key stored history := by
  induction history using List.reverseRecOn with
  | nil => exact ⟨nofun, fun h => absurd h not_lastSet_nil⟩
  | append_singleton history r ih =>
      rw [lastSet_concat, ← ih, kept_concat_find?]
      cases hs : r.stores? history with
      | none => simp
      | some put =>
          obtain ⟨b, key', stored'⟩ := put
          by_cases h : b = some (.named name) ∧ key' = key
          · obtain ⟨rfl, rfl⟩ := h
            simp
          · -- something is stored elsewhere
            have hne : ∀ later,
                some (b, key', stored') ≠ some (some (.named name), key, later) := by
              intro later he
              cases he
              exact h ⟨rfl, rfl⟩
            simp [h, hne]

/-! ## What is recalled -/

/-- Whether a handle recalls these bytes after a history, when it is asked for a key in some
version: they were last set under the key through a handle on its name, and the version asked for
is empty or the one that they were set with. -/
def Recalls (history : List Request) (handle : Nat) (key version : String) (bytes : ByteArray) :
    Prop :=
  ∃ name stored, (opened history)[handle]? = some (.named name) ∧
    LastSet name key stored history ∧ (version = "" ∨ version = stored.version) ∧
    stored.bytes = bytes

theorem get?_eq_some_iff {c : Cache} {b : Bucket} {key version : String} {bytes : ByteArray} :
    c.get? b key version = some bytes ↔ ∃ name stored, b = .named name ∧
      c.find? name key = some stored ∧ (version = "" ∨ version = stored.version) ∧
      stored.bytes = bytes := by
  unfold get?
  cases b with
  | null => exact ⟨nofun, nofun⟩
  | named name =>
      simp only [Bucket.named.injEq, exists_and_left, exists_eq_left', beq_iff_eq, Bool.or_eq_true]
      cases c.find? name key with
      | none => exact ⟨nofun, nofun⟩
      | some e => simp [eq_comm]

theorem kept_get? (history : List Request) (handle : Nat) (key version : String)
    (bytes : ByteArray) :
    (kept history).state.get? ((kept history).handle handle) key version = some bytes ↔
      Recalls history handle key version bytes := by
  have hb (name : String) : (kept history).handle handle = .named name ↔
      (opened history)[handle]? = some (.named name) := by
    unfold Keeping.Desk.handle
    rw [kept_handles]
    cases (opened history)[handle]? with
    | none => exact ⟨nofun, nofun⟩
    | some b => simp
  simp only [get?_eq_some_iff, kept_find?, hb, Recalls]

/-! ## Shelves -/

/-- Buckets as a cache keeps them: a shelf of entries for each name that was ever asked for. -/
structure Shelves where
  names : List (String × Nat) := []
  shelves : List (List (String × Stored)) := []

namespace Shelves

/-- The shelf of a name, which is put up when the name is first asked for. -/
def shelf (s : Shelves) (name : String) : Shelves × Nat :=
  match s.names.lookup name with
  | some i => (s, i)
  | none =>
    (⟨(name, s.shelves.length) :: s.names, s.shelves ++ [[]]⟩, s.shelves.length)

/-- What stands on a shelf under a key. -/
def find? (s : Shelves) (i : Nat) (key : String) : Option Stored :=
  s.shelves[i]?.bind fun entries => entries.lookup key

/-- Put something on a shelf in place of what stood there under the same key. -/
def put (s : Shelves) (i : Nat) (key : String) (stored : Stored) : Shelves :=
  { s with shelves := s.shelves.modify i fun entries =>
      (key, stored) :: entries.filter fun e => e.1 != key }

theorem find?_put {s : Shelves} {i : Nat} (h : i < s.shelves.length) (key : String)
    (stored : Stored) (j : Nat) (key' : String) :
    (s.put i key stored).find? j key' =
      if j = i ∧ key' = key then some stored else s.find? j key' := by
  unfold find? put
  rw [List.getElem?_modify]
  by_cases hj : j = i
  · subst hj
    simp only [h, getElem?_pos, Option.map_eq_map, Option.map_some, if_true, Option.bind_some,
      lookup_replaced, beq_iff_eq, true_and]
  · rw [if_neg fun hn => hj hn.1]
    simp [Ne.symm hj]

/-- What a handle on a shelf is by name. -/
inductive Holds (s : Shelves) : Option Nat → Bucket → Prop where
  | null : Holds s none .null
  | named {name : String} {i : Nat} (h : s.names.lookup name = some i) :
    Holds s (some i) (.named name)

/-- What is kept on shelves, and the same by name. -/
structure Mirrors (s : Shelves) (c : Cache) : Prop where
  entries : ∀ name key, c.find? name key =
    (s.names.lookup name).bind fun i => s.find? i key
  /-- No shelf has two names. -/
  apart : ∀ name name' i, s.names.lookup name = some i → s.names.lookup name' = some i →
    name = name'
  within : ∀ name i, s.names.lookup name = some i → i < s.shelves.length

variable {s : Shelves} {c : Cache}

theorem Mirrors.start : Mirrors {} {} := ⟨fun _ _ => rfl, nofun, nofun⟩

theorem lookup_names (names : List (String × Nat)) (name other : String) (i : Nat) :
    ((name, i) :: names).lookup other =
      if other = name then some i else names.lookup other := by
  rw [List.lookup_cons]
  by_cases h : other = name
  · simp [h]
  · simp [h, beq_false_of_ne h]

theorem find?_shelved {i : Nat} (h : i < s.shelves.length) (names : List (String × Nat))
    (entries : List (String × Stored)) (key : String) :
    find? ⟨names, s.shelves ++ [entries]⟩ i key = s.find? i key := by
  unfold find?
  rw [List.getElem?_append_left h]

/-- A shelf is put up for a name that has none. It is empty, and no other name's. -/
theorem Mirrors.putUp (h : Mirrors s c) {name : String} (hn : s.names.lookup name = none) :
    Mirrors ⟨(name, s.shelves.length) :: s.names, s.shelves ++ [[]]⟩ c where
  entries other key := by
    dsimp only
    rw [lookup_names, h.entries]
    by_cases ho : other = name
    · subst ho
      simp [hn, find?]
    · rw [if_neg ho]
      cases hi : s.names.lookup other with
      | none => rfl
      | some i => exact (find?_shelved (h.within other i hi) _ _ _).symm
  apart other other' i := by
    simp only [lookup_names]
    intro ho ho'
    split at ho <;> split at ho'
    · rename_i h₁ h₂
      exact h₁.trans h₂.symm
    · obtain rfl := Option.some.inj ho
      exact absurd (h.within _ _ ho') (Nat.lt_irrefl _)
    · obtain rfl := Option.some.inj ho'
      exact absurd (h.within _ _ ho) (Nat.lt_irrefl _)
    · exact h.apart _ _ _ ho ho'
  within other i := by
    simp only [lookup_names, List.length_append, List.length_singleton]
    intro ho
    split at ho
    · obtain rfl := Option.some.inj ho
      exact Nat.lt_succ_self _
    · exact Nat.lt_succ_of_lt (h.within _ _ ho)

theorem Holds.putUp {handle : Option Nat} {b : Bucket} (h : s.Holds handle b) {name : String}
    (hn : s.names.lookup name = none) (i : Nat) (shelves : List (List (String × Stored))) :
    Holds ⟨(name, i) :: s.names, shelves⟩ handle b := by
  cases h with
  | null => exact .null
  | named ho =>
      refine .named ((lookup_names _ _ _ _).trans ?_)
      rw [if_neg, ho]
      rintro rfl
      cases hn.symm.trans ho

/-- Opening a name leaves what is kept, and earlier handles, as they are. -/
theorem Mirrors.shelf (h : Mirrors s c) (name : String) :
    Mirrors (s.shelf name).1 c ∧ (s.shelf name).1.Holds (some (s.shelf name).2) (.named name) ∧
      ∀ handle b, s.Holds handle b → (s.shelf name).1.Holds handle b := by
  unfold Shelves.shelf
  cases hn : s.names.lookup name with
  | some i => exact ⟨h, .named hn, fun _ _ hh => hh⟩
  | none =>
      refine ⟨h.putUp hn, .named ?_, fun _ _ hh => hh.putUp hn _ _⟩
      exact (lookup_names _ _ _ _).trans (if_pos rfl)

/-- What is put on a shelf is set under its name, and under no other. -/
theorem Mirrors.put (h : Mirrors s c) {name : String} {i : Nat}
    (hi : s.names.lookup name = some i) (key version : String) (bytes : ByteArray) :
    Mirrors (s.put i key ⟨version, bytes⟩) (c.set (.named name) key version bytes) where
  entries name' key' := by
    rw [find?_set, h.entries]
    show _ = (s.names.lookup name').bind fun j => (s.put i key ⟨version, bytes⟩).find? j key'
    cases hj : s.names.lookup name' with
    | none =>
        rw [if_neg]
        · rfl
        · rintro ⟨rfl, -⟩
          cases hj.symm.trans hi
    | some j =>
        have hij : name' = name ↔ j = i := by
          constructor
          · rintro rfl
            exact Option.some.inj (hj.symm.trans hi)
          · rintro rfl
            exact h.apart _ _ _ hj hi
        simp only [Option.bind_some, find?_put (h.within name i hi), hij]
  apart := h.apart
  within name' j hj := by
    unfold Shelves.put
    dsimp only
    rw [List.length_modify]
    exact h.within name' j hj

/-- What is found through a handle on a shelf is found by name. -/
theorem Mirrors.find? (h : Mirrors s c) {name : String} {i : Nat}
    (hi : s.names.lookup name = some i) (key : String) : s.find? i key = c.find? name key := by
  rw [h.entries, hi, Option.bind_some]

end Shelves

/-- Buckets are kept on shelves. -/
abbrev byShelf : Keeping where
  State := Shelves
  Handle := Option Nat
  start := {}
  null := none
  bucket s name := ((s.shelf name).1, some (s.shelf name).2)
  set s handle key version bytes :=
    match handle with
    | none => s
    | some i => s.put i key ⟨version, bytes⟩
  get? s handle key version := handle.bind fun i => (s.find? i key).bind fun e =>
    if version == "" || e.version == version then some e.bytes else none

namespace Shelves

variable {s : Shelves} {c : Cache}

theorem Mirrors.set (h : Mirrors s c) {handle : Option Nat} {b : Bucket}
    (hb : s.Holds handle b) (key version : String) (bytes : ByteArray) :
    Mirrors (byShelf.set s handle key version bytes) (c.set b key version bytes) := by
  cases hb with
  | null => exact h
  | named hi => exact h.put hi key version bytes

theorem Mirrors.get? (h : Mirrors s c) {handle : Option Nat} {b : Bucket}
    (hb : s.Holds handle b) (key version : String) :
    byShelf.get? s handle key version = c.get? b key version := by
  cases hb with
  | null => rfl
  | @named name i hi =>
      show (s.find? i key).bind _ = _
      rw [h.find? hi]
      unfold Cache.get?
      dsimp only
      cases c.find? name key <;> rfl

theorem holds_set (s : Shelves) (handle : Option Nat) (key version : String) (bytes : ByteArray)
    {other : Option Nat} {b : Bucket} (h : s.Holds other b) :
    (byShelf.set s handle key version bytes : Shelves).Holds other b := by
  cases handle <;> cases h
  all_goals first
    | exact .null
    | exact .named ‹_›

end Shelves

/-- A desk with shelves, and the same one by name. -/
structure Alike (d : byShelf.Desk) (d' : byName.Desk) : Prop where
  state : Shelves.Mirrors d.state d'.state
  length : d.handles.length = d'.handles.length
  handles : ∀ n, Shelves.Holds d.state (d.handle n) (d'.handle n)

namespace Alike

variable {d : byShelf.Desk} {d' : byName.Desk}

theorem start : Alike {} {} := ⟨.start, rfl, fun _ => .null⟩

/-- A new handle is alike if it holds what its name says, and the old handles still do. -/
theorem concat (h : Alike d d') {s : Shelves} {handle : Option Nat} {b : Bucket}
    (hs : s.Mirrors d'.state) (hb : s.Holds handle b)
    (hold : ∀ other b', Shelves.Holds d.state other b' → s.Holds other b') :
    Alike ⟨s, d.handles ++ [handle]⟩ ⟨d'.state, d'.handles ++ [b]⟩ := by
  refine ⟨hs, by simp [h.length], fun n => ?_⟩
  rw [Keeping.Desk.handle_concat, Keeping.Desk.handle_concat, ← h.length]
  split_ifs
  · exact hb
  · exact hold _ _ (h.handles n)

theorem shelf (h : Alike d d') (name : String) :
    Alike ⟨(d.state.shelf name).1, d.handles ++ [some (d.state.shelf name).2]⟩
      ⟨d'.state, d'.handles ++ [.named name]⟩ :=
  have ⟨hs, hb, hold⟩ := h.state.shelf name
  h.concat hs hb hold

theorem set (h : Alike d d') (n : Nat) (key version : String) (bytes : ByteArray) :
    Alike { d with state := byShelf.set d.state (d.handle n) key version bytes }
      { d' with state := byName.set d'.state (d'.handle n) key version bytes } :=
  ⟨h.state.set (h.handles n) key version bytes, h.length,
    fun m => Shelves.holds_set _ _ _ _ _ (h.handles m)⟩

/-- A request is answered alike and leaves what is alike. -/
theorem serve (h : Alike d d') (r : Request) :
    Alike (d.serve r).1 (d'.serve r).1 ∧ (d.serve r).2 = (d'.serve r).2 := by
  cases r with
  | bucket opener name =>
      cases opener with
      | null => exact ⟨h.concat h.state .null fun _ _ hb => hb, congrArg _ h.length⟩
      | cache => exact ⟨h.shelf name, congrArg _ h.length⟩
      | copy n => exact ⟨h.shelf name, congrArg _ h.length⟩
  | set n key version bytes => exact ⟨h.set n key version bytes, rfl⟩
  | setText n key version text => exact ⟨h.set n key version text.toUTF8, rfl⟩
  | get n key version =>
      exact ⟨h, congrArg Answer.bytes (h.state.get? (h.handles n) key version)⟩
  | getText n key version =>
      have hget : byShelf.get? d.state (d.handle n) key version =
          byName.get? d'.state (d'.handle n) key version :=
        h.state.get? (h.handles n) key version
      refine ⟨h, ?_⟩
      rw [Keeping.Desk.serve, Keeping.Desk.serve, hget]

theorem answers (h : Alike d d') (requests : List Request) :
    d.answers requests = d'.answers requests := by
  induction requests generalizing d d' with
  | nil => rfl
  | cons r rest ih =>
      obtain ⟨hnext, hr⟩ := h.serve r
      exact congrArg₂ List.cons hr (ih hnext)

end Alike

/-- **Shelves answer as names do.** -/
theorem byShelf_answers (requests : List Request) :
    Keeping.Desk.answers (k := byShelf) {} requests =
      Keeping.Desk.answers (k := byName) {} requests :=
  Alike.start.answers requests

/-! ## The law -/

/-- **A bucket remembers what was last set in it.** Whatever buckets were opened before, through
whatever handles on whatever copy of a cache, and whatever was set and read there: a handle that is
asked for a key in some version answers with the bytes that were last set under the key through some
handle on its name, if the version is empty or theirs, and with nothing otherwise. As text, it
answers with the text that these bytes are in UTF-8, and with nothing if they are none. None of this
depends on whether handles hold names or shelves. -/
theorem recall_last (before after : List Request) (handle : Nat) (key version : String) :
    (∃ found, (Keeping.Desk.answers (k := byName) {}
        (before ++ .get handle key version :: after))[before.length]? = some (.bytes found) ∧
      ∀ bytes, found = some bytes ↔ Recalls before handle key version bytes) ∧
    (∃ found, (Keeping.Desk.answers (k := byName) {}
        (before ++ .getText handle key version :: after))[before.length]? = some (.text found) ∧
      ∀ text, found = some text ↔
        ∃ bytes, Recalls before handle key version bytes ∧ String.fromUTF8? bytes = some text) ∧
    ∀ requests, Keeping.Desk.answers (k := byShelf) {} requests =
      Keeping.Desk.answers (k := byName) {} requests := by
  rw [Keeping.Desk.getElem?_answers, Keeping.Desk.getElem?_answers]
  refine ⟨⟨_, rfl, kept_get? before handle key version⟩, ⟨_, rfl, fun text => ?_⟩, byShelf_answers⟩
  simp only [Option.bind_eq_some_iff, ← kept_get?]

/-- What one handle sets replaces what another one set before. -/
example : Keeping.Desk.answers (k := byShelf) {}
    [.bucket .cache "a", .bucket (.copy 1) "a", .set 0 "x" "1" ⟨#[1]⟩, .set 1 "x" "2" ⟨#[2]⟩,
      .get 0 "x" "1", .get 0 "x" ""] =
    [.handle 0, .handle 1, .done, .done, .bytes none, .bytes (some ⟨#[2]⟩)] := rfl

end Cache

end Inlay
