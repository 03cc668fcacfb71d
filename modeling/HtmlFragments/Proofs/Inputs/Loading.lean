import HtmlFragments.Inputs.Loading

/-! # What loading asks of a storage

Files are read one after the other up to the first path that is no file. Where a storage answers
every question and reads every file that it has, loading comes to an end with documents or with an
error. What it comes to depends on the storage through the answers to the reported calls alone. -/
set_option autoImplicit false

namespace HtmlFragments

/-- A storage that can always tell whether a path is a file, and can then read it. -/
structure Storage.Reliable (storage : Storage) : Prop where
  answers : ∀ path, ∃ found, storage.isFile path = .ok found
  reads : ∀ path, storage.isFile path = .ok true → ∃ content, storage.contents path = .ok content

theorem Storage.reliable_ofFiles {files : List (Text × Option Text)} (standardInput : Text)
    (readable : ∀ file ∈ files, file.2.isSome) : (ofFiles files standardInput).Reliable where
  answers path := ⟨_, rfl⟩
  reads path isFile := by
    obtain ⟨contents, found⟩ := Option.isSome_iff_exists.mp (Except.ok.inj isFile)
    obtain ⟨content, rfl⟩ := Option.isSome_iff_exists.mp (readable _ (mem_of_lookup found))
    refine ⟨content, ?_⟩
    simp only [ofFiles, found]

/-- Two storages give the same answer to a call. -/
def Call.AnsweredAlike (storage other : Storage) : Call → Prop
  | .isFile path => other.isFile path = storage.isFile path
  | .contents path => other.contents path = storage.contents path
  | .standardInput => other.standardInput = storage.standardInput

def Call.Concerns : Call → Inputs → Prop
  | .standardInput, .standardInput => True
  | .isFile path, .files paths => path ∈ paths
  | .contents path, .files paths => path ∈ paths
  | _, _ => False

namespace Loading

inductive Reads (storage : Storage) : List Text → Loading (List NamedText) → Prop where
  | nothing : Reads storage [] ⟨.ok [], [], []⟩
  | missing {path : Text} (rest : List Text) : storage.isFile path = .ok false →
      Reads storage (path :: rest) ⟨.error (.fileNotFound path), [.isFile path], []⟩
  | found {path content : Text} {rest : List Text} {further : Loading (List NamedText)} :
      storage.isFile path = .ok true → storage.contents path = .ok content →
      Reads storage rest further →
      Reads storage (path :: rest) (afterFile path content further)

variable {storage other : Storage}

theorem readFiles_cons_missing {path : Text} (rest : List Text)
    (isFile : storage.isFile path = .ok false) :
    readFiles storage (path :: rest) =
      .ok ⟨.error (.fileNotFound path), [.isFile path], []⟩ := by
  rw [readFiles, isFile]
  rfl

theorem readFiles_cons_found {path content : Text} (rest : List Text)
    (isFile : storage.isFile path = .ok true) (contents : storage.contents path = .ok content) :
    readFiles storage (path :: rest) = (readFiles storage rest).map (afterFile path content) := by
  rw [readFiles, isFile, contents]
  rfl

theorem readFiles_eq_ok_iff {paths : List Text} {loading : Loading (List NamedText)} :
    readFiles storage paths = .ok loading ↔ Reads storage paths loading := by
  constructor
  · intro read
    induction paths generalizing loading with
    | nil =>
      cases read
      exact .nothing
    | cons path rest ih =>
      cases isFile : storage.isFile path with
      | error fault =>
        rw [readFiles, isFile] at read
        cases read
      | ok found =>
        cases found with
        | false =>
          rw [readFiles_cons_missing rest isFile] at read
          cases read
          exact .missing rest isFile
        | true =>
          cases contents : storage.contents path with
          | error fault =>
            rw [readFiles, isFile, contents] at read
            cases read
          | ok content =>
            rw [readFiles_cons_found rest isFile contents] at read
            cases later : readFiles storage rest with
            | error fault =>
              rw [later] at read
              cases read
            | ok further =>
              rw [later] at read
              cases read
              exact .found isFile contents (ih later)
  · intro reads
    induction reads with
    | nothing => rfl
    | missing rest isFile => exact readFiles_cons_missing rest isFile
    | found isFile contents _ ih =>
      rw [readFiles_cons_found _ isFile contents, ih]
      rfl

theorem exists_reads (reliable : storage.Reliable) (paths : List Text) :
    ∃ loading, Reads storage paths loading := by
  induction paths with
  | nil => exact ⟨_, .nothing⟩
  | cons path rest ih =>
    obtain ⟨found, isFile⟩ := reliable.answers path
    cases found with
    | false => exact ⟨_, .missing rest isFile⟩
    | true =>
      obtain ⟨content, contents⟩ := reliable.reads path isFile
      obtain ⟨further, reads⟩ := ih
      exact ⟨_, .found isFile contents reads⟩

theorem Reads.congr {paths : List Text} {loading : Loading (List NamedText)}
    (reads : Reads storage paths loading)
    (alike : ∀ call ∈ loading.calls, call.AnsweredAlike storage other) :
    Reads other paths loading := by
  induction reads with
  | nothing => exact .nothing
  | missing rest isFile =>
    have asked := alike _ (List.mem_singleton_self _)
    exact .missing rest (asked.trans isFile)
  | found isFile contents _ ih =>
    obtain ⟨asked, opened, later⟩ :
        Call.AnsweredAlike storage other (.isFile _) ∧
          Call.AnsweredAlike storage other (.contents _) ∧ _ := by
      simpa only [afterFile, List.forall_mem_cons] using alike
    exact .found (asked.trans isFile) (opened.trans contents) (ih later)

theorem Reads.concerns {paths : List Text} {loading : Loading (List NamedText)}
    (reads : Reads storage paths loading) : ∀ call ∈ loading.calls, call.Concerns (.files paths) := by
  induction reads with
  | nothing => exact nofun
  | missing rest _ => exact List.forall_mem_singleton.mpr List.mem_cons_self
  | found _ _ _ ih =>
    refine List.forall_mem_cons.mpr ⟨List.mem_cons_self,
      List.forall_mem_cons.mpr ⟨List.mem_cons_self, fun call member => ?_⟩⟩
    have concerns := ih call member
    cases call with
    | standardInput => cases concerns
    | isFile _ => exact List.mem_cons_of_mem _ concerns
    | contents _ => exact List.mem_cons_of_mem _ concerns

/-! ## Documents -/

theorem concerns_of_loadDocuments {inputs : Inputs} {loading : Loading (List NamedDocument)}
    (loaded : loadDocuments storage inputs = .ok loading) :
    ∀ call ∈ loading.calls, call.Concerns inputs := by
  obtain ⟨texts, read, finishes⟩ := ok_of_bind_ok loaded
  cases finishes
  cases inputs with
  | standardInput =>
    cases read
    exact List.forall_mem_singleton.mpr trivial
  | files paths => exact (readFiles_eq_ok_iff.mp read).concerns

theorem exists_loadDocuments (reliable : storage.Reliable) (inputs : Inputs) :
    ∃ loading, loadDocuments storage inputs = .ok loading := by
  cases inputs with
  | standardInput => exact ⟨_, rfl⟩
  | files paths =>
    obtain ⟨texts, reads⟩ := exists_reads reliable paths
    refine ⟨{ texts with outcome := texts.outcome >>= parseAll }, ?_⟩
    rw [loadDocuments, readInputs, readFiles_eq_ok_iff.mpr reads]
    rfl

/-- Storages that answer alike whatever loading asks the first one are loaded from alike. -/
theorem loadDocuments_congr {inputs : Inputs} {loading : Loading (List NamedDocument)}
    (loaded : loadDocuments storage inputs = .ok loading)
    (alike : ∀ call ∈ loading.calls, call.AnsweredAlike storage other) :
    loadDocuments other inputs = .ok loading := by
  cases read : readInputs storage inputs with
  | error fault =>
    rw [loadDocuments, read] at loaded
    cases loaded
  | ok texts =>
    rw [loadDocuments, read] at loaded
    cases loaded
    have reread : readInputs other inputs = .ok texts := by
      cases inputs with
      | standardInput =>
        cases read
        have asked := alike _ (List.mem_singleton_self _)
        rw [readInputs, asked]
      | files paths => exact readFiles_eq_ok_iff.mpr ((readFiles_eq_ok_iff.mp read).congr alike)
    rw [loadDocuments, reread]
    rfl

end Loading
end HtmlFragments
