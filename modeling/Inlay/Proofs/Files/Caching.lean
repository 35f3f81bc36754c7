import Mathlib
import Inlay.Loading
import Inlay.Proofs.Files.Encoding
import Inlay.Proofs.Files.Storage

set_option autoImplicit false

/-! # The cache of decoded files

A caching loader answers from memory as long as the time of a file's last change stays what it was
when the file was decoded. This file follows any number of such loaders, all on one cache, along a
history in which the disk changes as it likes, and shows that each of them answers as a loader
without a cache would answer at that moment, the same text or the same error
(`cachedAnswers_eq_plainAnswers`). What the history must respect is `Dated`: a path does not come
back with the time it once had and something else at it. Times before the epoch are free, since a
file from before the epoch is neither looked up nor stored. A disk that does not change respects it
(`cachedAnswers_loads`).

The invariant is `Vouched`: whatever the bucket holds was at some moment the answer for a path and
an encoding, and is stored under the key of the two with the time of that moment as its version.
-/

namespace Inlay

/-! ## Keys and versions -/

theorem versionAt_of_neg {t : Int} (h : t < 0) : versionAt t = "" := if_pos h

theorem versionAt_of_nonneg {t : Int} (h : 0 ≤ t) : versionAt t = t.toNat.repr :=
  if_neg (Int.not_lt.mpr h)

theorem versionAt_ne_empty {t : Int} (h : 0 ≤ t) : versionAt t ≠ "" := by
  rw [versionAt_of_nonneg h]
  exact Nat.repr_ne_empty

theorem versionAt_inj {t u : Int} (ht : 0 ≤ t) (hu : 0 ≤ u) (h : versionAt t = versionAt u) :
    t = u := by
  rw [versionAt_of_nonneg ht, versionAt_of_nonneg hu] at h
  have := Nat.repr_inj.mp h
  omega

/-- A key tells the path and the encoding, for no name of an encoding begins another one. -/
theorem sourceKey_inj {p q : Path} {e e' : Encoding} (h : sourceKey p e = sourceKey q e') :
    p = q ∧ e = e' := by
  have hl : (sourceKey p e).toList = (sourceKey q e').toList := by rw [h]
  obtain ⟨p⟩ := p
  obtain ⟨q⟩ := q
  cases e <;> cases e' <;> simp [sourceKey, Encoding.name] at hl ⊢ <;>
    exact String.toList_inj.mp hl

/-! ## Histories -/

/-- One thing that happens around a cache. -/
inductive Happening where
  /-- The disk becomes another one. Files may have been written with any time of change, removed
  or replaced by directories. -/
  | change (disk : Disk)
  /-- One of the caching loaders is asked for a path. They differ in nothing but the handle they
  hold on the bucket, and all handles share its entries. -/
  | load (path : Path) (encoding : Encoding)
  /-- Something is stored in another bucket of the cache. -/
  | keep (bucket : String) (foreign : bucket ≠ "sources") (key version : String)
      (bytes : ByteArray)

/-- What the caching loaders answer along a history. -/
def cachedAnswers : Cache → Disk → List Happening → List (Except LoadError String)
  | _, _, [] => []
  | c, _, .change d :: rest => cachedAnswers c d rest
  | c, d, .load path encoding :: rest =>
    let (answer, c') := loadCached sourcesBucket c d path encoding
    answer :: cachedAnswers c' d rest
  | c, d, .keep bucket _ key version bytes :: rest =>
    cachedAnswers (c.set (.named bucket) key version bytes) d rest

/-- What a loader without a cache answers along a history. -/
def plainAnswers : Disk → List Happening → List (Except LoadError String)
  | _, [] => []
  | _, .change d :: rest => plainAnswers d rest
  | d, .load path encoding :: rest => fileLoader d path encoding :: plainAnswers d rest
  | d, .keep _ _ _ _ _ :: rest => plainAnswers d rest

/-- The disks of a history, from the one it starts with. -/
def disksOf (d : Disk) : List Happening → List Disk
  | [] => [d]
  | .change d' :: rest => d :: disksOf d' rest
  | _ :: rest => disksOf d rest

/-- The time of a file's last change tells what stands at its path: among the given disks, a path
never has one time from the epoch on with two contents or two kinds. -/
def Dated (disks : List Disk) : Prop :=
  ∀ d ∈ disks, ∀ d' ∈ disks, ∀ (path : Path) (e e' : Entry),
    d.entry path = .ok e → d'.entry path = .ok e' →
    0 ≤ e.modified → e.modified = e'.modified → e = e'

/-- A history is dated if the time of a change alone tells what stands wherever it is found. -/
theorem dated_of_told {disks : List Disk} (told : Int → Entry)
    (h : ∀ d ∈ disks, ∀ e ∈ d.standing, 0 ≤ e.modified → e = told e.modified) : Dated disks := by
  intro d hd d' hd' path e e' he he' ht hsame
  have he₁ : e = told e.modified := h d hd e (Disk.mem_standing he) ht
  have he₂ : e' = told e'.modified := h d' hd' e' (Disk.mem_standing he') (hsame ▸ ht)
  rw [he₁, he₂, hsame]

theorem mem_disksOf (d : Disk) (history : List Happening) : d ∈ disksOf d history := by
  induction history with
  | nil => exact List.mem_singleton_self d
  | cons step rest ih => cases step <;> simp [disksOf, ih]

/-! ## One load -/

/-- What a file loader answers depends only on what stands at the path. -/
theorem fileLoader_congr {d d' : Disk} {path : Path} (h : d.entry path = d'.entry path)
    (encoding : Encoding) : fileLoader d path encoding = fileLoader d' path encoding := by
  unfold fileLoader Disk.read
  rw [h]

theorem fileLoader_of_fault {d : Disk} {path : Path} {fault : SystemFault}
    (h : d.entry path = .error fault) (encoding : Encoding) :
    fileLoader d path encoding = .error (.system path fault) := by
  unfold fileLoader Disk.read
  rw [h]
  rfl

/-- A loader whose bucket keeps nothing is the file loader. -/
theorem loadCached_null (c : Cache) (d : Disk) (path : Path) (encoding : Encoding) :
    loadCached .null c d path encoding = (fileLoader d path encoding, c) := by
  unfold loadCached
  cases he : d.entry path with
  | error fault => rw [fileLoader_of_fault he]
  | ok e =>
    have hmiss : ∀ key version, c.getText? .null key version = none := fun _ _ => rfl
    have hset : ∀ key version text, c.setText .null key version text = c := fun _ _ _ => rfl
    simp only [hmiss, hset, ite_self]
    cases fileLoader d path encoding <;> rfl

/-- Everything in the bucket of decoded files was an answer on one of the given disks, and is kept
under its key and in its version. -/
def Vouched (disks : List Disk) (c : Cache) : Prop :=
  ∀ (key : String) (stored : Stored), c.find? "sources" key = some stored →
    ∃ d ∈ disks, ∃ (path : Path) (encoding : Encoding) (e : Entry) (text : String),
      key = sourceKey path encoding ∧ d.entry path = .ok e ∧ 0 ≤ e.modified ∧
      fileLoader d path encoding = .ok text ∧ stored = ⟨versionAt e.modified, text.toUTF8⟩

namespace Vouched

variable {disks : List Disk} {c : Cache} {d : Disk} {path : Path} {encoding : Encoding}

theorem cold (h : ∀ key, c.find? "sources" key = none) (disks : List Disk) : Vouched disks c := by
  intro key stored hf
  rw [h key] at hf
  cases hf

/-- Other buckets do not matter. -/
theorem keep (h : Vouched disks c) {bucket : String} (foreign : bucket ≠ "sources")
    (key version : String) (bytes : ByteArray) :
    Vouched disks (c.set (.named bucket) key version bytes) := by
  intro key' stored hf
  rw [Cache.find?_set, if_neg (fun hn => foreign hn.1.symm)] at hf
  exact h key' stored hf

theorem store (h : Vouched disks c) (hd : d ∈ disks) {e : Entry} (he : d.entry path = .ok e)
    (ht : 0 ≤ e.modified) {text : String} (hl : fileLoader d path encoding = .ok text) :
    Vouched disks
      (c.setText sourcesBucket (sourceKey path encoding) (versionAt e.modified) text) := by
  intro key stored hf
  rw [Cache.setText, sourcesBucket, Cache.find?_set] at hf
  split at hf
  next hn =>
    obtain rfl := Option.some.inj hf
    exact ⟨d, hd, path, encoding, e, text, hn.2, he, ht, hl, rfl⟩
  next => exact h key stored hf

/-- **A hit is right.** What the bucket has for a path in the version of this moment is what the
file loader answers at this moment: the entry was stored at a moment of the same version, so at
the same time of change, when the same thing stood at the path. -/
theorem hit (h : Vouched disks c) (dated : Dated disks) (hd : d ∈ disks) {e : Entry}
    (he : d.entry path = .ok e) (ht : 0 ≤ e.modified) {text : String}
    (hg : c.getText? sourcesBucket (sourceKey path encoding) (versionAt e.modified) =
      some text) :
    fileLoader d path encoding = .ok text := by
  rw [Cache.getText?, sourcesBucket, Cache.get?_named (versionAt_ne_empty ht)] at hg
  obtain ⟨bytes, hb, hdec⟩ := Option.bind_eq_some_iff.mp hg
  obtain ⟨stored, hfilter, rfl⟩ := Option.map_eq_some_iff.mp hb
  obtain ⟨hf, hversion⟩ := Option.filter_eq_some_iff.mp hfilter
  obtain ⟨d', hd', path', encoding', e', text', hkey, he', ht', hl, rfl⟩ := h _ _ hf
  obtain ⟨rfl, rfl⟩ := sourceKey_inj hkey
  have htime : e'.modified = e.modified := versionAt_inj ht' ht (by simpa using hversion)
  have hsame : e' = e := dated d' hd' d hd path e' e he' he ht' htime
  have htext : text' = text := Option.some.inj ((fromUTF8?_toUTF8 text').symm.trans hdec)
  rw [fileLoader_congr (he.trans (hsame ▸ he'.symm)), hl, htext]

end Vouched

/-- **One load.** A caching loader on a bucket whose entries are vouched for answers as the loader
without a cache does, and leaves the bucket so. -/
theorem loadCached_vouched {disks : List Disk} {c : Cache} {d : Disk} (h : Vouched disks c)
    (dated : Dated disks) (hd : d ∈ disks) (path : Path) (encoding : Encoding) :
    (loadCached sourcesBucket c d path encoding).1 = fileLoader d path encoding ∧
      Vouched disks (loadCached sourcesBucket c d path encoding).2 := by
  unfold loadCached
  cases he : d.entry path with
  | error fault => exact ⟨(fileLoader_of_fault he encoding).symm, h⟩
  | ok e =>
    by_cases ht : 0 ≤ e.modified
    · have hv : (versionAt e.modified == "") = false := by simpa using versionAt_ne_empty ht
      simp only [hv, Bool.false_eq_true, if_false]
      cases hg : c.getText? sourcesBucket (sourceKey path encoding) (versionAt e.modified) with
      | some text => exact ⟨(h.hit dated hd he ht hg).symm, h⟩
      | none =>
        cases hl : fileLoader d path encoding with
        | error fault => exact ⟨rfl, h⟩
        | ok text => exact ⟨rfl, h.store hd he ht hl⟩
    · -- before the epoch the cache takes no part
      simp only [versionAt_of_neg (Int.not_le.mp ht), beq_self_eq_true, if_true]
      cases hl : fileLoader d path encoding with
      | error fault => exact ⟨rfl, h⟩
      | ok text => exact ⟨rfl, h⟩

/-! ## A whole history -/

theorem cachedAnswers_vouched {disks : List Disk} (dated : Dated disks)
    (history : List Happening) {c : Cache} {d : Disk} (h : Vouched disks c)
    (hd : ∀ d' ∈ disksOf d history, d' ∈ disks) :
    cachedAnswers c d history = plainAnswers d history := by
  induction history generalizing c d with
  | nil => rfl
  | cons step rest ih =>
    cases step with
    | change d' =>
      rw [cachedAnswers, plainAnswers]
      exact ih h fun d'' hm => hd d'' (List.mem_cons_of_mem d hm)
    | load path encoding =>
      rw [cachedAnswers, plainAnswers]
      obtain ⟨hanswer, hafter⟩ :=
        loadCached_vouched h dated (hd d (mem_disksOf d rest)) path encoding
      exact List.cons_eq_cons.mpr ⟨hanswer, ih hafter hd⟩
    | keep bucket foreign key version bytes =>
      rw [cachedAnswers, plainAnswers]
      exact ih (h.keep foreign key version bytes) hd

/-- **The cache is transparent.** Along every history of changes of the disk, of loads through any
of the caching loaders that share a cache, and of uses of its other buckets, each load is answered
as by a loader without a cache at that moment: with the same text or with the same error. -/
theorem cachedAnswers_eq_plainAnswers (c : Cache) (d : Disk) (history : List Happening)
    (cold : ∀ key, c.find? "sources" key = none) (dated : Dated (disksOf d history)) :
    cachedAnswers c d history = plainAnswers d history :=
  cachedAnswers_vouched dated history (Vouched.cold cold _) fun _ hm => hm

/-- Loads one after another. -/
def loads (requests : List (Path × Encoding)) : List Happening :=
  requests.map fun x => .load x.1 x.2

theorem disksOf_loads (d : Disk) (requests : List (Path × Encoding)) :
    disksOf d (loads requests) = [d] := by
  induction requests with
  | nil => rfl
  | cons x requests ih => exact ih

theorem plainAnswers_loads (d : Disk) (requests : List (Path × Encoding)) :
    plainAnswers d (loads requests) = requests.map fun x => fileLoader d x.1 x.2 := by
  induction requests with
  | nil => rfl
  | cons x requests ih => exact congrArg (fileLoader d x.1 x.2 :: ·) ih

/-- On one disk a time tells what stands at a path, as only one thing does. -/
theorem dated_singleton (d : Disk) : Dated [d] := by
  intro d₁ h₁ d₂ h₂ path e e' he he' _ _
  obtain rfl := List.mem_singleton.mp h₁
  obtain rfl := List.mem_singleton.mp h₂
  exact Except.ok.inj (he.symm.trans he')

/-- **While the disk does not change, a cache is not noticed.** Loads through a bucket that was empty
before them are answered as by the file loader. -/
theorem cachedAnswers_loads {c : Cache} (cold : ∀ key, c.find? "sources" key = none) (d : Disk)
    (requests : List (Path × Encoding)) :
    cachedAnswers c d (loads requests) = requests.map fun x => fileLoader d x.1 x.2 := by
  have hdisks : ∀ d' ∈ disksOf d (loads requests), d' ∈ [d] := by
    rw [disksOf_loads]
    exact fun _ h => h
  rw [cachedAnswers_vouched (dated_singleton d) (loads requests) (Vouched.cold cold _) hdisks,
    plainAnswers_loads]

/-- A disk with one entry, named `a`. -/
def holding (e : Entry) : Disk := { entries := [(["a"], e)] }

/-- A file is read twice, changed, read, changed to something that is no text and has no version,
read in both encodings, removed, and replaced by a directory. -/
def eventful : List Happening :=
  [.load ⟨"a"⟩ .utf8, .load ⟨"a"⟩ .utf8,
   .change (holding (.file "yy".toUTF8 6)), .load ⟨"a"⟩ .utf8,
   .keep "pages" (by decide) "utf-8:a" "6" ByteArray.empty,
   .change (holding (.file ⟨#[0xff]⟩ (-3))), .load ⟨"a"⟩ .utf8, .load ⟨"a"⟩ .latin1,
   .change {}, .load ⟨"a"⟩ .utf8,
   .change (holding (.directory 7)), .load ⟨"a"⟩ .utf8]

theorem eventful_dated : Dated (disksOf (holding (.file "x".toUTF8 5)) eventful) := by
  apply dated_of_told fun t =>
    if t = 5 then .file "x".toUTF8 5
    else if t = 6 then .file "yy".toUTF8 6
    else .directory t
  intro d hd e he ht
  simp only [eventful, disksOf, List.mem_cons, List.not_mem_nil, or_false] at hd
  obtain rfl | rfl | rfl | rfl | rfl := hd <;>
    simp only [Disk.standing, holding, List.map_cons, List.map_nil, List.mem_cons,
      List.not_mem_nil, or_false] at he
  · obtain rfl | rfl := he <;> rfl
  · obtain rfl | rfl := he <;> rfl
  · obtain rfl | rfl := he
    · rfl
    · exact absurd ht (by decide)
  · obtain rfl := he
    rfl
  · obtain rfl | rfl := he <;> rfl

theorem eventful_answers :
    (∀ key, ({} : Cache).find? "sources" key = none) ∧
      Dated (disksOf (holding (.file "x".toUTF8 5)) eventful) ∧
      cachedAnswers {} (holding (.file "x".toUTF8 5)) eventful =
        [.ok "x", .ok "x", .ok "yy", .error (.undecodable ⟨"a"⟩ .utf8), .ok "ÿ",
         .error (.system ⟨"a"⟩ .notFound), .error (.system ⟨"a"⟩ .isADirectory)] := by
  have cold : ∀ key, ({} : Cache).find? "sources" key = none := fun _ => rfl
  refine ⟨cold, eventful_dated, ?_⟩
  rw [cachedAnswers_eq_plainAnswers _ _ _ cold eventful_dated]
  cbv

end Inlay
