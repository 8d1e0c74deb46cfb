import FalconAccount.CommandLine.Host
import FalconAccount.Proofs.FallibleSteps
import FalconAccount.Proofs.FileReplacement
import Mathlib.Data.List.MinMax

/-!
# A file system keeps the laws

A call to the file system changes at most the entries at one place or two. A path that leads to a file
elsewhere leads there still, for on the way to a file there are only directories. So a host with such a
file system is one on which a replacement works.
-/

namespace FalconAccount

namespace FileSystem

variable {fs fs' fs'' : FileSystem} {path name : String} {place q : List String} {number : ℕ}

section Entries

theorem entryAt_drop (hq : q ≠ []) (place : List String) :
    (fs.drop q).entryAt place = if place = q then none else fs.entryAt place := by
  have hlookup (entries : List (List String × Entry)) :
      (entries.filter (·.1 != q)).lookup place = if place = q then none else entries.lookup place := by
    induction entries with
    | nil => simp
    | cons entry entries ih =>
      obtain ⟨first, e⟩ := entry
      by_cases hfirst : first = q
      · subst hfirst
        rw [List.filter_cons_of_neg (by simp), ih]
        by_cases hplace : place = first
        · simp [hplace]
        · simp [hplace, List.lookup_cons, beq_eq_false_iff_ne.mpr hplace]
      · by_cases hplace : place = first
        · subst hplace
          simp [hfirst]
        · simp [ih, hfirst, List.lookup_cons, beq_eq_false_iff_ne.mpr hplace]
  cases place with
  | nil => rw [if_neg hq.symm]; rfl
  | cons first rest => exact hlookup fs.entries

theorem entryAt_put (hq : q ≠ []) (place : List String) :
    (fs.put q number).entryAt place = if place = q then some (.file number) else fs.entryAt place := by
  cases place with
  | nil => rw [if_neg hq.symm]; rfl
  | cons first rest =>
    have hlookup : (fs.put q number).entryAt (first :: rest) =
        ((q, Entry.file number) :: (fs.drop q).entries).lookup (first :: rest) := rfl
    rw [hlookup, List.lookup_cons]
    by_cases hplace : first :: rest = q
    · simp [hplace]
    · rw [beq_eq_false_iff_ne.mpr hplace, if_neg hplace]
      exact (entryAt_drop hq _).trans (if_neg hplace)

theorem entryAt_of_drop {e : Entry} (hq : q ≠ []) (h : (fs.drop q).entryAt place = some e) :
    fs.entryAt place = some e := by
  rw [entryAt_drop hq] at h
  split_ifs at h
  exact h

theorem ne_nil_of_file (h : fs.entryAt q = some (.file number)) : q ≠ [] := by
  rintro rfl
  cases h

theorem lt_freshNumber (h : fs.entryAt place = some (.file number)) : number < fs.freshNumber := by
  cases place with
  | nil => cases h
  | cons first rest =>
    obtain ⟨before, after, hentries, -⟩ := List.lookup_eq_some_iff.mp h
    have hmem : (first :: rest, Entry.file number) ∈ fs.entries := by simp [hentries]
    have hnumber : number + 1 ∈ fs.entries.map (·.2.nextNumber) := List.mem_map.mpr ⟨_, hmem, rfl⟩
    exact List.le_max_of_le' 0 hnumber le_rfl

end Entries

section Following

/-- The entries are the same but for one place, and there is no directory at that place. -/
structure AgreeBut (q : List String) (fs fs' : FileSystem) : Prop where
  home : fs'.home = fs.home
  entry {place : List String} : place ≠ q → fs'.entryAt place = fs.entryAt place
  left : fs.entryAt q ≠ some .directory
  right : fs'.entryAt q ≠ some .directory

theorem AgreeBut.symm (h : AgreeBut q fs fs') : AgreeBut q fs' fs :=
  ⟨h.home.symm, fun hplace => (h.entry hplace).symm, h.right, h.left⟩

def Target.Avoids (q : List String) (t : Target) : Prop := ∀ number, t ≠ .file q number

theorem step_directory_eq_ok_iff {t : Target} :
    fs.step (.directory place) name = .ok t ↔
      (isIdle name = true ∧ t = .directory place) ∨
      (isIdle name = false ∧ name = ".." ∧ t = .directory place.dropLast) ∨
      (isIdle name = false ∧ name ≠ ".." ∧ name.utf8ByteSize ≤ maxNameSize ∧
        ((fs.entryAt (place ++ [name]) = some .directory ∧ t = .directory (place ++ [name])) ∨
          ∃ number, fs.entryAt (place ++ [name]) = some (.file number) ∧
            t = .file (place ++ [name]) number)) := by
  rw [step]
  split_ifs with hidle hup hsize
  · simp [hidle, eq_comm]
  · subst hup
    simp only [hidle, Except.ok.injEq]
    exact eq_comm.trans (by simp)
  · simp [hidle, hup, Nat.not_le.mpr hsize]
  · rcases fs.entryAt (place ++ [name]) with _ | _ | number
    · simp [hidle, hup]
    · simp [hidle, hup, Nat.not_lt.mp hsize, eq_comm]
    · simp [hidle, hup, Nat.not_lt.mp hsize, eq_comm]

theorem AgreeBut.step_eq (h : AgreeBut q fs fs') {t t' : Target} (hstep : fs.step t name = .ok t')
    (havoids : t'.Avoids q) : fs'.step t name = .ok t' := by
  cases t with
  | file place number => cases hstep
  | directory place =>
    rw [step_directory_eq_ok_iff] at hstep ⊢
    rcases hstep with hidle | hup | ⟨hidle, hup, hsize, hentry⟩
    · exact .inl hidle
    · exact .inr (.inl hup)
    · have hplace : place ++ [name] ≠ q := by
        rintro rfl
        rcases hentry with ⟨hentry, -⟩ | ⟨number, -, rfl⟩
        · exact h.left hentry
        · exact havoids number rfl
      rw [h.entry hplace]
      exact .inr (.inr ⟨hidle, hup, hsize, hentry⟩)

theorem eq_of_steps_file {names : List String} {t : Target}
    (h : names.foldlM fs.step (.file place number) = .ok t) : t = .file place number := by
  cases names with
  | nil => exact (Except.ok.inj h).symm
  | cons name names => cases h

theorem AgreeBut.steps_eq (h : AgreeBut q fs fs') {names : List String} {t t' : Target}
    (hsteps : names.foldlM fs.step t = .ok t') (havoids : t'.Avoids q) :
    names.foldlM fs'.step t = .ok t' := by
  induction names generalizing t with
  | nil => exact hsteps
  | cons name names ih =>
    obtain ⟨between, hstep, hrest⟩ := bind_eq_ok_iff.mp hsteps
    have hbetween : between.Avoids q := by
      rintro number rfl
      exact havoids number (eq_of_steps_file hrest)
    exact bind_eq_ok_iff.mpr ⟨between, h.step_eq hstep hbetween, ih hrest⟩

theorem AgreeBut.absolutePath_eq (h : AgreeBut q fs fs') (path : String) :
    fs'.absolutePath path = fs.absolutePath path := by
  rw [absolutePath, absolutePath, h.home]

theorem resolve_eq_ok_iff {t : Target} :
    fs.resolve path = .ok t ↔ checkPath path = .ok () ∧ path.isEmpty = false ∧
      fs.follow (pathNames (fs.absolutePath path)) = .ok t := by
  rw [resolve]
  cases checkPath path with
  | error e => simp [bind, Except.bind]
  | ok _ => cases path.isEmpty <;> simp [bind, Except.bind, throw, throwThe, MonadExceptOf.throw]

theorem fileAt_eq_ok_iff : fs.fileAt path = .ok (place, number) ↔
    fs.resolve path = .ok (.file place number) := by
  rw [fileAt]
  rcases fs.resolve path with _ | _ | _ <;>
    simp [bind, Except.bind, throw, throwThe, MonadExceptOf.throw, pure, Except.pure]

theorem AgreeBut.resolve_eq (h : AgreeBut q fs fs') {t : Target} (hresolve : fs.resolve path = .ok t)
    (havoids : t.Avoids q) : fs'.resolve path = .ok t := by
  rw [resolve_eq_ok_iff] at hresolve ⊢
  obtain ⟨hcheck, hempty, hfollow⟩ := hresolve
  rw [h.absolutePath_eq]
  exact ⟨hcheck, hempty, h.steps_eq hfollow havoids⟩

/-- A path to a file elsewhere leads there still. -/
theorem AgreeBut.fileAt_eq (h : AgreeBut q fs fs') (hfile : fs.fileAt path = .ok (place, number))
    (hplace : place ≠ q) : fs'.fileAt path = .ok (place, number) := by
  rw [fileAt_eq_ok_iff] at hfile ⊢
  refine h.resolve_eq hfile ?_
  rintro _ ⟨⟩
  exact hplace rfl

theorem entryAt_of_fileAt (h : fs.fileAt path = .ok (place, number)) :
    fs.entryAt place = some (.file number) := by
  have hsteps (names : List String) (start : List String)
      (h : names.foldlM fs.step (.directory start) = .ok (.file place number)) :
      fs.entryAt place = some (.file number) := by
    induction names generalizing start with
    | nil => cases h
    | cons name names ih =>
      obtain ⟨between, hstep, hrest⟩ := bind_eq_ok_iff.mp h
      cases between with
      | directory place => exact ih _ hrest
      | file place' number' =>
        cases eq_of_steps_file hrest
        rcases step_directory_eq_ok_iff.mp hstep with ⟨-, ⟨⟩⟩ | ⟨-, -, ⟨⟩⟩ | ⟨-, -, -, h⟩
        rcases h with ⟨-, ⟨⟩⟩ | ⟨number, hentry, ⟨⟩⟩
        exact hentry
  rw [fileAt_eq_ok_iff, resolve_eq_ok_iff] at h
  exact hsteps _ _ h.2.2

end Following

section Slots

theorem pathNames_of_splitLast {parent : List String} (hname : isIdle name = false)
    (h : splitLast path = (parent, name, false)) : pathNames path = parent ++ [name] := by
  obtain ⟨hparent, hlast, hslash⟩ : _ ∧ _ ∧ _ := by simpa [splitLast] using h
  -- No slashes follow the last name, so nothing was cut off.
  have hsuffix := List.dropWhile_suffix (l := (pathNames path).reverse) (·.isEmpty)
  have hall := hsuffix.eq_of_length (le_antisymm hsuffix.length_le (by simpa using hslash))
  rw [hall] at hparent hlast
  cases hreverse : (pathNames path).reverse with
  | nil =>
    rw [hreverse] at hlast
    subst hlast
    cases hname
  | cons last before =>
    rw [hreverse] at hparent hlast
    obtain rfl : last = name := hlast
    rw [← List.reverse_reverse (pathNames path), hreverse, List.reverse_cons, ← hparent]
    rfl

/-- A path to a name in a directory, at which there can be a file. -/
structure Slot (fs : FileSystem) (path : String) (place : List String) (name : String) : Prop where
  checked : checkPath path = .ok ()
  nonempty : path.isEmpty = false
  parent : ∃ parent, pathNames (fs.absolutePath path) = parent ++ [name] ∧
    fs.follow parent = .ok (.directory place)
  proper : isIdle name = false ∧ name ≠ ".." ∧ name.utf8ByteSize ≤ maxNameSize

theorem Slot.fileAt_eq (h : fs.Slot path place name)
    (hentry : fs.entryAt (place ++ [name]) = some (.file number)) :
    fs.fileAt path = .ok (place ++ [name], number) := by
  obtain ⟨parent, hnames, hfollow⟩ := h.parent
  obtain ⟨hidle, hup, hsize⟩ := h.proper
  rw [fileAt_eq_ok_iff, resolve_eq_ok_iff]
  refine ⟨h.checked, h.nonempty, ?_⟩
  rw [follow, hnames, List.foldlM_append]
  refine bind_eq_ok_iff.mpr ⟨_, hfollow, bind_eq_ok_iff.mpr ⟨_, ?_, rfl⟩⟩
  exact step_directory_eq_ok_iff.mpr (.inr (.inr ⟨hidle, hup, hsize, .inr ⟨_, hentry, rfl⟩⟩))

theorem Slot.of_agreeBut (h : fs.Slot path place name) (hagree : AgreeBut q fs fs') :
    fs'.Slot path place name := by
  obtain ⟨parent, hnames, hfollow⟩ := h.parent
  refine ⟨h.checked, h.nonempty, ⟨parent, ?_, hagree.steps_eq hfollow nofun⟩, h.proper⟩
  rw [hagree.absolutePath_eq, hnames]

theorem agreeBut_put (hfree : fs.entryAt (place ++ [name]) ≠ some .directory) :
    AgreeBut (place ++ [name]) fs (fs.put (place ++ [name]) number) where
  home := rfl
  entry hplace := by rw [entryAt_put (by simp), if_neg hplace]
  left := hfree
  right := by
    rw [entryAt_put (by simp), if_pos rfl]
    nofun

theorem AgreeBut.store (h : AgreeBut q fs fs') (number : ℕ) (file : File) :
    AgreeBut q fs (fs'.store number file) :=
  ⟨h.home, h.entry, h.left, h.right⟩

theorem agreeBut_add (file : File) (hfree : fs.entryAt (place ++ [name]) = none) :
    AgreeBut (place ++ [name]) fs (fs.add (place ++ [name]) file) :=
  (agreeBut_put (hfree.symm ▸ nofun)).store _ _

theorem agreeBut_drop (hfile : fs.entryAt q = some (.file number)) : AgreeBut q fs (fs.drop q) where
  home := rfl
  entry hplace := by rw [entryAt_drop (ne_nil_of_file hfile), if_neg hplace]
  left := by
    rw [hfile]
    nofun
  right := by
    rw [entryAt_drop (ne_nil_of_file hfile), if_pos rfl]
    nofun

theorem Slot.of_lastIn (h : fs.lastIn path = .ok (place, name, false))
    (hname : isIdle name = false ∧ name ≠ "..") (hsize : ¬ maxNameSize < name.utf8ByteSize) :
    fs.Slot path place name := by
  obtain ⟨⟨⟩, hcheck, h⟩ := bind_eq_ok_iff.mp h
  split_ifs at h with hempty
  rcases hsplit : splitLast (fs.absolutePath path) with ⟨parent, last, slash⟩
  rw [hsplit] at h
  obtain ⟨target, hfollow, h⟩ := bind_eq_ok_iff.mp h
  cases target with
  | file place number => cases h
  | directory place =>
    cases h
    exact ⟨hcheck, Bool.not_eq_true _ ▸ hempty, ⟨parent, pathNames_of_splitLast hname.1 hsplit, hfollow⟩,
      hname.1, hname.2, Nat.not_lt.mp hsize⟩

theorem exists_slot_of_make (h : fs.make path = .ok fs') : ∃ place name, fs.Slot path place name ∧
    fs.entryAt (place ++ [name]) = none ∧ fs' = fs.add (place ++ [name]) ⟨[], false⟩ := by
  obtain ⟨⟨place, name, slash⟩, hlast, h⟩ := bind_eq_ok_iff.mp h
  simp only at h
  split_ifs at h with hname hsize hthere
  simp only [Bool.or_eq_true, decide_eq_true_eq, not_or, Bool.not_eq_true] at hname
  obtain ⟨hname, rfl⟩ := hname
  exact ⟨place, name, .of_lastIn hlast hname hsize, by simpa using hthere, (Except.ok.inj h).symm⟩

theorem exists_slot_of_move {source target : String} (h : fs.move source target = .ok fs') :
    ∃ old number place name, fs.fileAt source = .ok (old, number) ∧ fs.Slot target place name ∧
      fs.entryAt (place ++ [name]) ≠ some .directory ∧
      fs' = (fs.drop old).put (place ++ [name]) number := by
  rw [move] at h
  split_ifs at h with hnul
  obtain ⟨⟨old, number⟩, hsource, h⟩ := bind_eq_ok_iff.mp h
  obtain ⟨⟨place, name, slash⟩, hlast, h⟩ := bind_eq_ok_iff.mp h
  simp only at h
  split_ifs at h with hname hsize hslash hthere
  simp only [Bool.or_eq_true, decide_eq_true_eq, not_or, Bool.not_eq_true] at hname hslash
  subst hslash
  exact ⟨old, number, place, name, hsource, .of_lastIn hlast hname hsize, hthere,
    (Except.ok.inj h).symm⟩

theorem splitLast_of_pathNames {parent : List String} (hname : isIdle name = false)
    (h : pathNames path = parent ++ [name]) : splitLast path = (parent, name, false) := by
  have hempty : name.isEmpty = false := by
    cases hempty : name.isEmpty with
    | false => rfl
    | true => simp [isIdle, String.isEmpty_iff.mp hempty] at hname
  simp [splitLast, h, hempty]

theorem Slot.lastIn_eq (h : fs.Slot path place name) : fs.lastIn path = .ok (place, name, false) := by
  obtain ⟨parent, hnames, hfollow⟩ := h.parent
  rw [lastIn, h.checked, h.nonempty, splitLast_of_pathNames h.proper.1 hnames]
  change (fs.follow parent >>= _) = _
  rw [hfollow]
  rfl

theorem Slot.make_eq (h : fs.Slot path place name) (hfree : fs.entryAt (place ++ [name]) = none) :
    fs.make path = .ok (fs.add (place ++ [name]) ⟨[], false⟩) := by
  obtain ⟨hidle, hup, hsize⟩ := h.proper
  rw [make, h.lastIn_eq]
  refine (if_neg (by simp [hidle, hup])).trans ((if_neg (Nat.not_lt.mpr hsize)).trans (if_neg ?_))
  simp [hfree]

theorem Slot.createTemporary_eq {directory : String}
    (h : fs.Slot (fs.absolutePath (String.join [directory, "/", temporaryName 0])) place name)
    (hfree : fs.entryAt (place ++ [name]) = none) :
    fs.createTemporary directory =
      .ok (fs.absolutePath (String.join [directory, "/", temporaryName 0]),
        fs.add (place ++ [name]) ⟨[], false⟩) := by
  rw [createTemporary, List.range_succ_eq_map, List.map_cons, makeFirst, h.make_eq hfree]

theorem Slot.move_eq {source : String} {old : List String} (h : fs.Slot path place name)
    (hsource : fs.fileAt source = .ok (old, number))
    (hfree : fs.entryAt (place ++ [name]) ≠ some .directory) :
    fs.move source path = .ok ((fs.drop old).put (place ++ [name]) number) := by
  obtain ⟨hidle, hup, hsize⟩ := h.proper
  have hnul : ¬ holdsNul path = true := by
    intro hnul
    have hcheck := h.checked
    rw [checkPath, if_pos hnul] at hcheck
    cases hcheck
  rw [move, if_neg hnul, hsource, h.lastIn_eq]
  refine (if_neg (by simp [hidle, hup])).trans ((if_neg (Nat.not_lt.mpr hsize)).trans ?_)
  exact (if_neg Bool.false_ne_true).trans (if_neg hfree)

theorem write_eq (h : fs.fileAt path = .ok (place, number)) (content : Bytes) :
    fs.write path content = .ok (fs.store number
      ⟨(fs.files number).content ++ content, (fs.files number).executable⟩) := by
  rw [write, h]
  rfl

theorem make_of_createTemporary {directory : String}
    (h : fs.createTemporary directory = .ok (path, fs')) : fs.make path = .ok fs' := by
  rw [createTemporary] at h
  generalize (List.range _).map _ = paths at h
  induction paths with
  | nil => cases h
  | cons first paths ih =>
    rw [makeFirst] at h
    split at h
    · cases h
      assumption
    · exact ih h
    · cases h

end Slots

end FileSystem

namespace CommandLine.Host

open FileSystem

variable {τ : Type} {s s' : FileSystem × τ} {path name : String} {place q : List String} {number : ℕ}

/-- There are no links, so that a path has the file itself to which it leads. -/
def view (τ : Type) : FileView (FileSystem × τ) ℕ where
  file? s path := (s.1.fileAt path).toOption.map Prod.snd
  own? s path := (s.1.fileAt path).toOption.map Prod.snd
  file?_of_own? := id
  LeadsToDirectory s path := ∃ place, s.1.resolve path = .ok (.directory place)
  content s number := (s.1.files number).content

theorem file?_eq_some_iff :
    (view τ).file? s path = some number ↔ ∃ place, s.1.fileAt path = .ok (place, number) := by
  rw [view]
  cases hfile : s.1.fileAt path with
  | error e => simp [hfile, Except.toOption]
  | ok found => simp [hfile, Except.toOption, Prod.ext_iff]

theorem not_leadsToDirectory_of_file? (h : (view τ).file? s path = some number) :
    ¬ (view τ).LeadsToDirectory s path := by
  obtain ⟨place, hplace⟩ := file?_eq_some_iff.mp h
  rintro ⟨other, hother⟩
  cases (fileAt_eq_ok_iff.mp hplace).symm.trans hother

theorem leadsToDirectory_of_agreeBut (hagree : AgreeBut q s.1 s'.1) :
    (view τ).LeadsToDirectory s' = (view τ).LeadsToDirectory s := by
  funext path
  refine propext ⟨?_, ?_⟩
  · rintro ⟨place, hplace⟩
    exact ⟨place, hagree.symm.resolve_eq hplace nofun⟩
  · rintro ⟨place, hplace⟩
    exact ⟨place, hagree.resolve_eq hplace nofun⟩

theorem keepsIf_of_agreeBut {P : ℕ → Prop} (hagree : AgreeBut q s.1 s'.1)
    (hfiles : ∀ number, P number → s'.1.files number = s.1.files number)
    (hgone : ∀ number, s.1.entryAt q = some (.file number) → ¬ P number) :
    (view τ).KeepsIf P s s' := by
  intro path number hfile hnumber
  obtain ⟨place, hplace⟩ := file?_eq_some_iff.mp hfile
  have hne : place ≠ q := by
    rintro rfl
    exact hgone number (entryAt_of_fileAt hplace) hnumber
  refine ⟨file?_eq_some_iff.mpr ⟨place, hagree.fileAt_eq hplace hne⟩, ?_⟩
  exact congrArg File.content (hfiles number hnumber)

theorem lt_freshNumber_of_file? (h : (view τ).file? s path = some number) :
    number < s.1.freshNumber := by
  obtain ⟨place, hplace⟩ := file?_eq_some_iff.mp h
  exact lt_freshNumber (entryAt_of_fileAt hplace)

/-- A path that leads to a file in a new state led there before, if the file is not the new one. -/
theorem file?_of_agreeBut (hagree : AgreeBut q s.1 s'.1) (hentry : s'.1.entryAt q = some (.file number))
    {other : ℕ} (hfile : (view τ).file? s' path = some other) (hne : other ≠ number) :
    (view τ).file? s path = some other := by
  obtain ⟨place, hplace⟩ := file?_eq_some_iff.mp hfile
  refine file?_eq_some_iff.mpr ⟨place, hagree.symm.fileAt_eq hplace ?_⟩
  rintro rfl
  cases (entryAt_of_fileAt hplace).symm.trans hentry
  exact hne rfl

theorem create_ok (t : τ) {fs fs' : FileSystem} (hmake : fs.make path = .ok fs') :
    (view τ).Keeps (fs, t) (fs', t) ∧
      (view τ).LeadsToDirectory (fs', t) = (view τ).LeadsToDirectory (fs, t) ∧
      ∃ number, (view τ).own? (fs', t) path = some number ∧ (view τ).content (fs', t) number = [] ∧
        (∀ other, (view τ).file? (fs, t) other ≠ some number) ∧
        ∀ other n, (view τ).file? (fs', t) other = some n → n ≠ number →
          (view τ).file? (fs, t) other = some n := by
  obtain ⟨place, name, hslot, hfree, rfl⟩ := exists_slot_of_make hmake
  have hagree := agreeBut_add ⟨[], false⟩ hfree
  have hentry : (fs.add (place ++ [name]) ⟨[], false⟩).entryAt (place ++ [name]) =
      some (.file fs.freshNumber) := (entryAt_put (by simp) _).trans (if_pos rfl)
  have hnew (other : String) (n : ℕ) (hfile : (view τ).file? (fs, t) other = some n) :
      n ≠ fs.freshNumber := (lt_freshNumber_of_file? hfile).ne
  have hkeeps : (view τ).KeepsIf (· ≠ fs.freshNumber) (fs, t)
      (fs.add (place ++ [name]) ⟨[], false⟩, t) := by
    refine keepsIf_of_agreeBut hagree (fun _ hne => if_neg hne) fun _ hthere => ?_
    cases hfree.symm.trans hthere
  refine ⟨hkeeps.keeps hnew, leadsToDirectory_of_agreeBut hagree, fs.freshNumber, ?_,
    congrArg File.content (if_pos rfl), ?_, ?_⟩
  · exact file?_eq_some_iff.mpr ⟨_, (hslot.of_agreeBut hagree).fileAt_eq hentry⟩
  · exact fun other hfile => hnew other _ hfile rfl
  · exact fun other n hfile hne => file?_of_agreeBut hagree hentry hfile hne

theorem move_ok (t : τ) {fs fs' : FileSystem} {source target : String}
    (hmove : fs.move source target = .ok fs') (hfile : (view τ).file? (fs, t) source = some number) :
    (view τ).file? (fs', t) target = some number ∧
      (view τ).content (fs', t) number = (view τ).content (fs, t) number ∧
      (view τ).KeepsIf (fun n => n ≠ number ∧ (view τ).file? (fs, t) target ≠ some n)
        (fs, t) (fs', t) := by
  obtain ⟨old, moved, place, name, hsource, hslot, hfree, rfl⟩ := exists_slot_of_move hmove
  obtain ⟨_, hplace⟩ := file?_eq_some_iff.mp hfile
  cases hsource.symm.trans hplace
  have hold := entryAt_of_fileAt hsource
  have hroot := ne_nil_of_file hold
  have hdrop := agreeBut_drop hold
  have hput : AgreeBut (place ++ [name]) (fs.drop old) ((fs.drop old).put (place ++ [name]) number) :=
    agreeBut_put fun hthere => hfree (entryAt_of_drop hroot hthere)
  refine ⟨file?_eq_some_iff.mpr ⟨_, ((hslot.of_agreeBut hdrop).of_agreeBut hput).fileAt_eq ?_⟩, rfl, ?_⟩
  · rw [entryAt_put (by simp), if_pos rfl]
  · -- First the file goes from its place, and then the one that it replaces.
    have hgone : (view τ).KeepsIf (fun n => n ≠ number ∧ (view τ).file? (fs, t) target ≠ some n)
        (fs, t) (fs.drop old, t) := by
      refine keepsIf_of_agreeBut hdrop (fun _ _ => rfl) fun n hthere hn => ?_
      cases hthere.symm.trans hold
      exact hn.1 rfl
    refine hgone.trans (keepsIf_of_agreeBut hput (fun _ _ => rfl) fun n hthere hn => hn.2 ?_)
    exact file?_eq_some_iff.mpr ⟨_, hslot.fileAt_eq (entryAt_of_drop hroot hthere)⟩

theorem change_eq_iff {result : Except OsError FileSystem} {reply : Except OsError Unit} :
    change s result = (reply, s') ↔
      reply = result.map (fun _ => ()) ∧ s' = (result.toOption.getD s.1, s.2) := by
  cases result with
  | error e => simp [change, Except.map, Except.toOption, eq_comm]
  | ok fs => simp [change, Except.map, Except.toOption, eq_comm]

variable (h : Host τ)

/-- A host keeps the laws of files. -/
theorem lawful : (view τ).Lawful h.answer where
  read := by
    rintro s s' path reply ⟨⟩
    exact .refl s
  create_error := by
    intro s s' directory e hanswer
    rw [answer] at hanswer
    cases hcreate : s.1.createTemporary directory with
    | error e => rw [hcreate] at hanswer; cases hanswer; exact .refl s
    | ok made => rw [hcreate] at hanswer; cases hanswer
  create_ok := by
    intro s s' directory temporary hanswer
    rw [answer] at hanswer
    cases hcreate : s.1.createTemporary directory with
    | error e => rw [hcreate] at hanswer; cases hanswer
    | ok made =>
      rw [hcreate] at hanswer
      cases hanswer
      exact create_ok s.2 (make_of_createTemporary hcreate)
  write := by
    intro s s' path content reply number hanswer hfile
    obtain ⟨place, hplace⟩ := file?_eq_some_iff.mp hfile
    obtain ⟨-, rfl⟩ := change_eq_iff.mp hanswer
    rw [write_eq hplace]
    exact ⟨fun _ _ hother hne => ⟨hother, congrArg File.content (if_neg hne)⟩, ⟨rfl, rfl, rfl⟩,
      fun _ => congrArg File.content (if_pos rfl)⟩
  sync := by
    intro s s' path reply hanswer
    obtain ⟨-, rfl⟩ := change_eq_iff.mp hanswer
    cases s.1.fileAt path with
    | error e => exact .refl s
    | ok found => exact .refl s
  move_error := by
    intro s s' source target e hanswer
    obtain ⟨hreply, rfl⟩ := change_eq_iff.mp hanswer
    cases hmove : s.1.move source target with
    | error e => exact .refl s
    | ok after => rw [hmove] at hreply; cases hreply
  move_ok := by
    intro s s' source target number hanswer hfile
    obtain ⟨hreply, rfl⟩ := change_eq_iff.mp hanswer
    cases hmove : s.1.move source target with
    | error e => rw [hmove] at hreply; cases hreply
    | ok after =>
      obtain ⟨htarget, hcontent, hothers⟩ := move_ok s.2 hmove hfile
      exact ⟨htarget, hcontent, fun _ => hothers⟩
  remove := by
    intro s s' path reply number hanswer hfile
    obtain ⟨place, hplace⟩ := file?_eq_some_iff.mp hfile
    have hentry := entryAt_of_fileAt hplace
    obtain ⟨-, rfl⟩ := change_eq_iff.mp hanswer
    have hremove : s.1.remove path = .ok (s.1.drop place) := by
      rw [FileSystem.remove, hplace]
      rfl
    rw [hremove]
    refine keepsIf_of_agreeBut (agreeBut_drop hentry) (fun _ _ => rfl) fun other hother hne => ?_
    cases hother.symm.trans hentry
    exact hne rfl

/-- A file is replaced where a temporary file can be made, unless there is a directory. -/
theorem exists_replaces (t : τ) (content : Bytes) {fs fs₁ : FileSystem} {temporary : String}
    (hcreate : fs.createTemporary (parentPath path) = .ok (temporary, fs₁))
    (hslot : fs.Slot path place name) (hfree : fs.entryAt (place ++ [name]) ≠ some .directory) :
    ∃ fs', Replaces h.answer path content temporary (fs, t) (fs', t) := by
  obtain ⟨-, -, number, hfile, -⟩ := create_ok t (make_of_createTemporary hcreate)
  obtain ⟨made, hmade⟩ := file?_eq_some_iff.mp hfile
  obtain ⟨place', name', -, hnew, hmake⟩ := exists_slot_of_make (make_of_createTemporary hcreate)
  let file : File := ⟨(fs₁.files number).content ++ content, (fs₁.files number).executable⟩
  have hmade' : (fs₁.store number file).fileAt temporary = .ok (made, number) := hmade
  have hagree : AgreeBut (place' ++ [name']) fs (fs₁.store number file) := by
    rw [hmake]
    exact (agreeBut_add _ hnew).store _ _
  have hfree' : (fs₁.store number file).entryAt (place ++ [name]) ≠ some .directory := by
    by_cases hplace : place ++ [name] = place' ++ [name']
    · exact hplace ▸ hagree.right
    · rwa [hagree.entry hplace]
  have hcreated : h.answer (fs, t) (.createTemporary (parentPath path)) = (.ok temporary, (fs₁, t)) := by
    rw [answer, hcreate]
  have hwritten : h.answer (fs₁, t) (.write temporary content) =
      (.ok (), (fs₁.store number file, t)) := by
    rw [answer, write_eq hmade]
    rfl
  have hsynced : h.answer (fs₁.store number file, t) (.sync temporary) =
      (.ok (), (fs₁.store number file, t)) := by
    rw [answer, hmade']
    rfl
  have hmoved : h.answer (fs₁.store number file, t) (.move temporary path) =
      (.ok (), (((fs₁.store number file).drop made).put (place ++ [name]) number, t)) := by
    rw [answer, (hslot.of_agreeBut hagree).move_eq hmade' hfree']
    rfl
  exact ⟨_, _, _, _, hcreated, hwritten, hsynced, hmoved⟩

end CommandLine.Host

end FalconAccount
