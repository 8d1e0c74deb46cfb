import FalconAccount.CommandLine.Effect
import FalconAccount.Proofs.AnsweredDialogues

/-!
# Replaced files

A file is replaced in four steps, each of which can fail. What the steps do to files is taken from the
documentation of the calls, as laws for whatever answers them. By these laws a replacement puts exactly
the new content in its place, and one that fails leaves every file as it was.
-/

namespace FalconAccount.CommandLine

/-- The files in states of type `σ`, and the paths to them. A path can end in a link to a file or to a
directory. -/
structure FileView (σ ι : Type) where
  /-- The file that a path leads to. -/
  file? : σ → String → Option ι
  /-- The file that is itself at a path, where there is no link. -/
  own? : σ → String → Option ι
  file?_of_own? {s : σ} {path : String} {f : ι} : own? s path = some f → file? s path = some f
  LeadsToDirectory : σ → String → Prop
  content : σ → ι → Bytes

namespace FileView

variable {σ ι : Type} (v : FileView σ ι)

def held? (s : σ) (path : String) : Option Bytes := (v.file? s path).map (v.content s)

/-- All paths to files for which `P` holds lead to them still, and their content is the same. -/
def KeepsIf (P : ι → Prop) (s s' : σ) : Prop :=
  ∀ path f, v.file? s path = some f → P f → v.file? s' path = some f ∧ v.content s' f = v.content s f

def Keeps (s s' : σ) : Prop := v.KeepsIf (fun _ => True) s s'

structure SamePaths (s s' : σ) : Prop where
  file : v.file? s' = v.file? s
  own : v.own? s' = v.own? s
  directory : v.LeadsToDirectory s' = v.LeadsToDirectory s

/-- Every file is as it was, and no path leads to another one. -/
def Same (s s' : σ) : Prop := v.Keeps s s' ∧ v.SamePaths s s'

/-- What calls to the file system do. One that fails changes nothing, but for a write, which may have
written a part. A link at the end of a path is not followed when a file is moved there. -/
structure Lawful (answer : σ → (e : Effect) → e.Reply × σ) : Prop where
  read {s s' : σ} {path : String} {reply : Except OsError Bytes} :
    answer s (.read path) = (reply, s') → v.Same s s'
  create_error {s s' : σ} {directory : String} {e : OsError} :
    answer s (.createTemporary directory) = (.error e, s') → v.Same s s'
  /-- No path led to the new file before, and the others lead where they led. -/
  create_ok {s s' : σ} {directory temporary : String} :
    answer s (.createTemporary directory) = (.ok temporary, s') →
      v.Keeps s s' ∧ v.LeadsToDirectory s' = v.LeadsToDirectory s ∧
        ∃ f, v.own? s' temporary = some f ∧ v.content s' f = [] ∧
          (∀ path, v.file? s path ≠ some f) ∧
          ∀ path g, v.file? s' path = some g → g ≠ f → v.file? s path = some g
  write {s s' : σ} {path : String} {content : Bytes} {reply : Except OsError Unit} {f : ι} :
    answer s (.write path content) = (reply, s') → v.own? s path = some f →
      v.KeepsIf (· ≠ f) s s' ∧ v.SamePaths s s' ∧
        (reply = .ok () → v.content s' f = v.content s f ++ content)
  sync {s s' : σ} {path : String} {reply : Except OsError Unit} :
    answer s (.sync path) = (reply, s') → v.Same s s'
  move_error {s s' : σ} {source target : String} {e : OsError} :
    answer s (.move source target) = (.error e, s') → v.Same s s'
  /-- All files are kept but the one that was moved and the one in whose place it is. With a link to a
  directory, the ways through that link are gone. -/
  move_ok {s s' : σ} {source target : String} {f : ι} :
    answer s (.move source target) = (.ok (), s') → v.own? s source = some f →
      v.file? s' target = some f ∧ v.content s' f = v.content s f ∧
        (¬ v.LeadsToDirectory s target → v.KeepsIf (fun g => g ≠ f ∧ v.file? s target ≠ some g) s s')
  remove {s s' : σ} {path : String} {reply : Except OsError Unit} {f : ι} :
    answer s (.remove path) = (reply, s') → v.own? s path = some f → v.KeepsIf (· ≠ f) s s'

variable {v} {P : ι → Prop} {s s' s'' : σ}

theorem KeepsIf.trans (h : v.KeepsIf P s s') (h' : v.KeepsIf P s' s'') : v.KeepsIf P s s'' := by
  intro path f hf hP
  obtain ⟨hfile, hcontent⟩ := h path f hf hP
  obtain ⟨hfile', hcontent'⟩ := h' path f hfile hP
  exact ⟨hfile', hcontent'.trans hcontent⟩

theorem Keeps.keepsIf (h : v.Keeps s s') (P : ι → Prop) : v.KeepsIf P s s' :=
  fun path f hf _ => h path f hf trivial

theorem KeepsIf.keeps (h : v.KeepsIf P s s') (hP : ∀ path f, v.file? s path = some f → P f) :
    v.Keeps s s' := fun path f hf _ => h path f hf (hP path f hf)

theorem SamePaths.trans (h : v.SamePaths s s') (h' : v.SamePaths s' s'') : v.SamePaths s s'' :=
  ⟨h'.file.trans h.file, h'.own.trans h.own, h'.directory.trans h.directory⟩

theorem Same.refl (s : σ) : v.Same s s := ⟨fun _ _ hf _ => ⟨hf, rfl⟩, rfl, rfl, rfl⟩

theorem Same.trans (h : v.Same s s') (h' : v.Same s' s'') : v.Same s s'' :=
  ⟨KeepsIf.trans h.1 h'.1, h.2.trans h'.2⟩

theorem KeepsIf.held?_eq (h : v.KeepsIf P s s') {path : String} {content : Bytes}
    (hheld : v.held? s path = some content) (hP : ∀ f, v.file? s path = some f → P f) :
    v.held? s' path = some content := by
  obtain ⟨f, hf, rfl⟩ := Option.map_eq_some_iff.mp hheld
  obtain ⟨hfile, hcontent⟩ := h path f hf (hP f hf)
  exact Option.map_eq_some_iff.mpr ⟨f, hfile, hcontent⟩

end FileView

section Replacement

variable {σ : Type} (answer : σ → (e : Effect) → e.Reply × σ)

/-- All four steps that replace a file succeed from `s` on, with new content that is first put at
`temporary`. -/
def Replaces (path : String) (content : Bytes) (temporary : String) (s s' : σ) : Prop :=
  ∃ s₁ s₂ s₃, answer s (.createTemporary (parentPath path)) = (.ok temporary, s₁) ∧
    answer s₁ (.write temporary content) = (.ok (), s₂) ∧
    answer s₂ (.sync temporary) = (.ok (), s₃) ∧ answer s₃ (.move temporary path) = (.ok (), s')

variable {answer} {path temporary : String} {content : Bytes} {s s' : σ}

theorem Replaces.transcript_eq (h : Replaces answer path content temporary s s') :
    (replaceFile path content).transcript answer s =
      ⟨.ok (), [⟨.createTemporary (parentPath path), .ok temporary⟩, ⟨.write temporary content, .ok ()⟩,
        ⟨.sync temporary, .ok ()⟩, ⟨.move temporary path, .ok ()⟩], s'⟩ := by
  obtain ⟨s₁, s₂, s₃, hcreate, hwrite, hsync, hmove⟩ := h
  simp only [replaceFile, Dialogue.transcript, hcreate, hwrite, hsync, hmove]
  rfl

variable (answer) in
/-- A replacement that fails has failed in one of its steps; what was made is taken away. -/
inductive Abandons (path : String) (content : Bytes) (s : σ) : ReplaceError → σ → Prop where
  | create {s' : σ} {e : OsError} : answer s (.createTemporary (parentPath path)) = (.error e, s') →
      Abandons path content s (.write e) s'
  | write {s₁ s₂ s' : σ} {temporary : String} {e : OsError} {removed : Except OsError Unit} :
      answer s (.createTemporary (parentPath path)) = (.ok temporary, s₁) →
      answer s₁ (.write temporary content) = (.error e, s₂) →
      answer s₂ (.remove temporary) = (removed, s') → Abandons path content s (.write e) s'
  | sync {s₁ s₂ s₃ s' : σ} {temporary : String} {e : OsError} {removed : Except OsError Unit} :
      answer s (.createTemporary (parentPath path)) = (.ok temporary, s₁) →
      answer s₁ (.write temporary content) = (.ok (), s₂) →
      answer s₂ (.sync temporary) = (.error e, s₃) →
      answer s₃ (.remove temporary) = (removed, s') → Abandons path content s (.write e) s'
  | move {s₁ s₂ s₃ s₄ s' : σ} {temporary : String} {e : OsError} {removed : Except OsError Unit} :
      answer s (.createTemporary (parentPath path)) = (.ok temporary, s₁) →
      answer s₁ (.write temporary content) = (.ok (), s₂) →
      answer s₂ (.sync temporary) = (.ok (), s₃) →
      answer s₃ (.move temporary path) = (.error e, s₄) →
      answer s₄ (.remove temporary) = (removed, s') → Abandons path content s (.rename e) s'

variable (answer path content s) in
/-- A replacement goes through all its steps or is given up in one of them. -/
theorem replaces_or_abandons :
    (∃ temporary s', Replaces answer path content temporary s s') ∨
      ∃ e, ((replaceFile path content).transcript answer s).value = .error e ∧
        Abandons answer path content s e ((replaceFile path content).transcript answer s).state := by
  rcases hcreate : answer s (.createTemporary (parentPath path)) with ⟨created, s₁⟩
  cases created with
  | error e =>
    simp only [replaceFile, Dialogue.transcript, hcreate]
    exact .inr ⟨_, rfl, .create hcreate⟩
  | ok temporary =>
    rcases hwrite : answer s₁ (.write temporary content) with ⟨written, s₂⟩
    cases written with
    | error e =>
      simp only [replaceFile, discard, Dialogue.transcript, hcreate, hwrite]
      exact .inr ⟨_, rfl, .write hcreate hwrite rfl⟩
    | ok _ =>
      rcases hsync : answer s₂ (.sync temporary) with ⟨synced, s₃⟩
      cases synced with
      | error e =>
        simp only [replaceFile, discard, Dialogue.transcript, hcreate, hwrite, hsync]
        exact .inr ⟨_, rfl, .sync hcreate hwrite hsync rfl⟩
      | ok _ =>
        rcases hmove : answer s₃ (.move temporary path) with ⟨moved, s₄⟩
        cases moved with
        | error e =>
          simp only [replaceFile, discard, Dialogue.transcript, hcreate, hwrite, hsync, hmove]
          exact .inr ⟨_, rfl, .move hcreate hwrite hsync hmove rfl⟩
        | ok _ => exact .inl ⟨temporary, s₄, s₁, s₂, s₃, hcreate, hwrite, hsync, hmove⟩

end Replacement

section Laws

variable {σ ι : Type} {v : FileView σ ι} {answer : σ → (e : Effect) → e.Reply × σ}
  {path temporary : String} {content : Bytes} {s s₁ s₂ s' : σ}

/-- A temporary file is one that no path led to before; and writing to it touches no other. -/
theorem FileView.Lawful.exists_of_write (h : v.Lawful answer) {written : Except OsError Unit}
    (hcreate : answer s (.createTemporary (parentPath path)) = (.ok temporary, s₁))
    (hwrite : answer s₁ (.write temporary content) = (written, s₂)) :
    v.LeadsToDirectory s₂ = v.LeadsToDirectory s ∧ ∃ f, v.own? s₂ temporary = some f ∧
      (∀ path, v.file? s path ≠ some f) ∧
      (∀ path g, v.file? s₂ path = some g → g ≠ f → v.file? s path = some g) ∧
      v.KeepsIf (· ≠ f) s s₂ ∧ (written = .ok () → v.content s₂ f = content) := by
  obtain ⟨hkeeps, hdirectory, f, hfile, hempty, hnew, hold⟩ := h.create_ok hcreate
  obtain ⟨hothers, hpaths, happend⟩ := h.write hwrite hfile
  refine ⟨hpaths.directory.trans hdirectory, f, ?_, hnew, ?_, (hkeeps.keepsIf _).trans hothers,
    fun hok => ?_⟩
  · rw [hpaths.own, hfile]
  · rw [hpaths.file]
    exact hold
  · rw [happend hok, hempty, List.nil_append]

theorem FileView.Lawful.keeps_of_abandons (h : v.Lawful answer) {e : ReplaceError}
    (habandons : Abandons answer path content s e s') : v.Keeps s s' := by
  -- Behind a write the temporary file stays the same until it is taken away, and no other one is lost.
  have hdiscard {s₂ s₃ : σ} {f : ι} {temporary : String} {removed : Except OsError Unit}
      (hnew : ∀ path, v.file? s path ≠ some f) (hkeeps : v.KeepsIf (· ≠ f) s s₂)
      (hsame : v.Same s₂ s₃) (hfile : v.own? s₂ temporary = some f)
      (hremove : answer s₃ (.remove temporary) = (removed, s')) : v.Keeps s s' := by
    have hfile' : v.own? s₃ temporary = some f := by rw [hsame.2.own, hfile]
    refine ((hkeeps.trans (hsame.1.keepsIf _)).trans (h.remove hremove hfile')).keeps ?_
    rintro other g hg rfl
    exact hnew other hg
  cases habandons with
  | create hcreate => exact (h.create_error hcreate).1
  | write hcreate hwrite hremove =>
    obtain ⟨-, f, hfile, hnew, -, hkeeps, -⟩ := h.exists_of_write hcreate hwrite
    exact hdiscard hnew hkeeps (.refl _) hfile hremove
  | sync hcreate hwrite hsync hremove =>
    obtain ⟨-, f, hfile, hnew, -, hkeeps, -⟩ := h.exists_of_write hcreate hwrite
    exact hdiscard hnew hkeeps (h.sync hsync) hfile hremove
  | move hcreate hwrite hsync hmove hremove =>
    obtain ⟨-, f, hfile, hnew, -, hkeeps, -⟩ := h.exists_of_write hcreate hwrite
    exact hdiscard hnew hkeeps ((h.sync hsync).trans (h.move_error hmove)) hfile hremove

/-- After a replacement the path leads to the new content. Every file is as it was but for the one in
whose place that is. -/
theorem FileView.Lawful.held?_of_replaces (h : v.Lawful answer)
    (hreplaces : Replaces answer path content temporary s s') :
    v.held? s' path = some content ∧
      (¬ v.LeadsToDirectory s path → v.KeepsIf (fun g => v.file? s path ≠ some g) s s') := by
  obtain ⟨s₁, s₂, s₃, hcreate, hwrite, hsync, hmove⟩ := hreplaces
  obtain ⟨hdirectory, f, hfile, hnew, hold, hkeeps, hcontent⟩ := h.exists_of_write hcreate hwrite
  obtain ⟨hsame, hpaths⟩ := h.sync hsync
  have hfile' : v.own? s₃ temporary = some f := by rw [hpaths.own, hfile]
  obtain ⟨hmoved, hmovedContent, hothers⟩ := h.move_ok hmove hfile'
  constructor
  · refine Option.map_eq_some_iff.mpr ⟨f, hmoved, ?_⟩
    rw [hmovedContent, (hsame temporary f (v.file?_of_own? hfile) trivial).2, hcontent rfl]
  · intro hnone other g hg hplace
    have hne : g ≠ f := by
      rintro rfl
      exact hnew other hg
    obtain ⟨hg', hcontent'⟩ := hkeeps.trans (hsame.keepsIf _) other g hg hne
    have hplace' : v.file? s₃ path ≠ some g := by
      rw [hpaths.file]
      exact fun hpath => hplace (hold path g hpath hne)
    have hnone' : ¬ v.LeadsToDirectory s₃ path := by rwa [hpaths.directory, hdirectory]
    obtain ⟨hg'', hcontent''⟩ := hothers hnone' other g hg' ⟨hne, hplace'⟩
    exact ⟨hg'', hcontent''.trans hcontent'⟩

end Laws

end FalconAccount.CommandLine
