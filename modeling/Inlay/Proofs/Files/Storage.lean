import Inlay.Loading

set_option autoImplicit false

/-! # What is stored is found again

The disk and the cache keep their entries in a list, newest first, and storing one drops the
earlier one of its name. So the last thing stored under a name is what the name finds, and the
other names find what they found before (`lookup_replaced`). On the disk the name is a place, and
a path must still lead to it: a file that takes the place of a file, or stands where nothing was,
is on the way of no path that was followed before (`Disk.follow_put`). A file that was written is
therefore read back (`Disk.read_write`), and a text that is written to an outlet arrives as its
bytes (`Outlet.write_received`).
-/

namespace Inlay

section Lists

variable {α β : Type} [BEq α] [LawfulBEq α]

theorem lookup_filter_ne {k k' : α} (h : k' ≠ k) (l : List (α × β)) :
    (l.filter fun x => x.1 != k).lookup k' = l.lookup k' := by
  induction l with
  | nil => rfl
  | cons x l ih =>
    obtain ⟨a, b⟩ := x
    by_cases hk : a = k
    · subst hk
      have hne : (k' == a) = false := by simpa using h
      simp [List.lookup_cons, hne, ih]
    · simp [List.lookup_cons, hk, ih]

theorem lookup_replaced (k k' : α) (b : β) (l : List (α × β)) :
    ((k, b) :: l.filter fun x => x.1 != k).lookup k' =
      if k' == k then some b else l.lookup k' := by
  rw [List.lookup_cons]
  cases h : k' == k with
  | true => rfl
  | false => exact lookup_filter_ne (by simpa using h) l

end Lists

/-! ## The cache -/

namespace Cache

theorem find?_set (c : Cache) (name key version : String) (bytes : ByteArray)
    (name' key' : String) :
    (c.set (.named name) key version bytes).find? name' key' =
      if name' = name ∧ key' = key then some ⟨version, bytes⟩ else c.find? name' key' := by
  unfold find? set
  rw [lookup_replaced]
  simp only [beq_iff_eq, Prod.mk.injEq]

/-- A version that is not empty is answered with exactly what is stored in that version. -/
theorem get?_named {c : Cache} {name key version : String} (h : version ≠ "") :
    c.get? (.named name) key version =
      ((c.find? name key).filter fun e => e.version == version).map Stored.bytes := by
  have hv : (version == "") = false := by simpa using h
  cases hf : c.find? name key with
  | none => simp [get?, hf]
  | some e =>
    cases hb : e.version == version <;> simp [get?, Option.filter, hf, hv, hb]

end Cache

/-! ## The disk -/

namespace Disk

variable {d : Disk} {place : List String}

theorem find?_put (h : place ≠ []) (e : Entry) (other : List String) :
    (d.put place e).find? other = if other = place then some e else d.find? other := by
  cases other with
  | nil => rw [if_neg (fun hn => h hn.symm)]; rfl
  | cons name rest => simpa [find?, put] using lookup_replaced place (name :: rest) e d.entries

/-- A place that is no directory is not on the way of a path. -/
theorem follow_put (h : d.isDirectory place = false) (e : Entry) {reached : List String}
    {parts : List (List Char)} {found : List String} (hf : d.follow reached parts = .ok found) :
    (d.put place e).follow reached parts = .ok found := by
  have hroot : place ≠ [] := by rintro rfl; simp [isDirectory, find?] at h
  induction parts generalizing reached with
  | nil => exact hf
  | cons part rest ih =>
    rw [follow] at hf ⊢
    cases hr : d.find? reached with
    | none => simp [hr] at hf
    | some there =>
      cases there with
      | file bytes modified => simp [hr] at hf
      | directory modified =>
        have hne : reached ≠ place := by rintro rfl; simp [isDirectory, hr] at h
        rw [find?_put hroot, if_neg hne]
        simp only [hr] at hf ⊢
        -- both disks turn the same way, for the part alone decides it
        split at hf
        next hv => rw [if_pos hv]; exact ih hf
        next hv =>
          rw [if_neg hv]
          split at hf
          next hu => rw [if_pos hu]; exact ih hf
          next hu => rw [if_neg hu]; exact ih hf

theorem place_put (h : d.isDirectory place = false) (e : Entry) {p : Path} {found : List String}
    (hp : d.place p = .ok found) : (d.put place e).place p = .ok found := by
  unfold Disk.place at hp ⊢
  split at hp
  next => cases hp
  next hempty =>
    rw [if_neg hempty]
    split at hp
    next => cases hp
    next hnul => rw [if_neg hnul]; exact follow_put h e hp

theorem write_ok {p : Path} {bytes : ByteArray} {d' : Disk} (h : d.write p bytes = .ok d') :
    ∃ place, d.place p = .ok place ∧ d.isDirectory place = false ∧
      d' = d.put place (.file bytes d.now) := by
  unfold write at h
  cases hp : d.place p with
  | error fault => cases fault <;> simp only [hp] at h <;> (try split at h) <;> cases h
  | ok place =>
    simp only [hp] at h
    split at h
    · cases h
    next hfree =>
      refine ⟨place, rfl, ?_, by cases h; rfl⟩
      unfold isDirectory
      split
      next modified hd => exact absurd hd (hfree modified)
      next => rfl

theorem entry_of_place {p : Path} (h : d.place p = .ok place) :
    d.entry p = (d.find? place).elim (.error .notFound) .ok := by
  simp only [entry, h, bind, Except.bind]
  cases d.find? place <;> rfl

/-- All that stands anywhere on a disk. -/
def standing (d : Disk) : List Entry := .directory d.now :: d.entries.map Prod.snd

theorem mem_standing {p : Path} {e : Entry} (h : d.entry p = .ok e) : e ∈ d.standing := by
  cases hp : d.place p with
  | error fault =>
    rw [entry, hp] at h
    cases h
  | ok place =>
    rw [entry_of_place hp] at h
    cases hf : d.find? place with
    | none =>
      rw [hf] at h
      cases h
    | some there =>
      rw [hf] at h
      cases h
      cases place with
      | nil =>
        cases hf
        exact List.mem_cons_self
      | cons name rest =>
        obtain ⟨before, after, hsplit, -⟩ := List.lookup_eq_some_iff.mp hf
        rw [standing, hsplit]
        simp

/-- **A written file is read back**, byte for byte. -/
theorem read_write {p : Path} {bytes : ByteArray} {d' : Disk} (h : d.write p bytes = .ok d') :
    d'.read p = .ok bytes := by
  obtain ⟨place, hp, hdir, rfl⟩ := write_ok h
  have hroot : place ≠ [] := by rintro rfl; simp [isDirectory, find?] at hdir
  have hentry : (d.put place (.file bytes d.now)).entry p = .ok (.file bytes d.now) := by
    rw [entry_of_place (place_put hdir _ hp), find?_put hroot, if_pos rfl]
    rfl
  rw [read, hentry]
  rfl

end Disk

/-! ## The outlet -/

namespace Outlet

/-- Whether an outlet has received bytes for a path: they were printed, or they are what stands
there. -/
def Received (o : Outlet) (path : Path) (bytes : ByteArray) (o' : Outlet) : Prop :=
  if path.same standardOutput then o' = { o with printed := o.printed ++ bytes }
  else o.disk.write path bytes = .ok o'.disk ∧ o'.disk.read path = .ok bytes ∧
    o'.printed = o.printed

/-- A text that can be encoded is received as its bytes, or else the disk refuses them. -/
theorem write_received {encoding : Encoding} {text : String} {bytes : ByteArray}
    (h : encoding.encode text = .ok bytes) (o : Outlet) (path : Path) :
    (∃ o', o.write path text encoding = .ok o' ∧ o.Received path bytes o') ∨
      ∃ fault, path.same standardOutput = false ∧ o.disk.write path bytes = .error fault ∧
        o.write path text encoding = .error (.system path fault) := by
  unfold write Received
  rw [h]
  dsimp only
  cases hp : path.same standardOutput with
  | true => exact .inl ⟨_, rfl, rfl⟩
  | false =>
      simp only [Bool.false_eq_true, if_false]
      cases hw : o.disk.write path bytes with
      | error fault => exact .inr ⟨fault, trivial, rfl, rfl⟩
      | ok disk => exact .inl ⟨_, rfl, rfl, Disk.read_write hw, rfl⟩

end Outlet

end Inlay
