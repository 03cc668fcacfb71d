import HtmlFragments.Proofs.Inputs.Loading

/-! # The first failure of loading

All files are read before any of them is parsed. So a missing path is reported before malformed
content, wherever the two stand, and only what comes before the first missing path is read at all.
Main result: what loading comes to, what it asks and what it reports, for files that are missing,
malformed or well formed in any order. -/
set_option autoImplicit false

namespace HtmlFragments

/-- The storage has these files and no others, and can read all of them. -/
structure Storage.Holds (storage : Storage) (files : Text → Option Text) : Prop where
  isFile : ∀ path, storage.isFile path = .ok (files path).isSome
  contents : ∀ path content, files path = some content → storage.contents path = .ok content

theorem Storage.Holds.reliable {storage : Storage} {files : Text → Option Text}
    (holds : storage.Holds files) : storage.Reliable where
  answers path := ⟨_, holds.isFile path⟩
  reads path isFile := by
    rw [holds.isFile] at isFile
    obtain ⟨content, stored⟩ := Option.isSome_iff_exists.mp (Except.ok.inj isFile)
    exact ⟨content, holds.contents path content stored⟩

theorem Storage.holds_ofFiles {files : List (Text × Option Text)} (standardInput : Text)
    (readable : ∀ file ∈ files, file.2.isSome) :
    (ofFiles files standardInput).Holds fun path => (files.lookup path).join where
  isFile path := by
    cases found : files.lookup path with
    | none => simp [ofFiles, found]
    | some contents =>
      have filled := readable _ (mem_of_lookup found)
      simpa [ofFiles, found] using filled.symm
  contents path content stored := by
    have found : files.lookup path = some (some content) := by
      simpa [Option.join_eq_some_iff] using stored
    simp [ofFiles, found]

namespace Loading

variable {storage : Storage} {files : Text → Option Text}

/-! ## Reading up to the first missing path -/

structure HasText (storage : Storage) (text : NamedText) : Prop where
  isFile : storage.isFile text.path = .ok true
  contents : storage.contents text.path = .ok text.content

theorem hasText_of_holds (holds : storage.Holds files) {text : NamedText}
    (stored : files text.path = some text.content) : HasText storage text where
  isFile := by rw [holds.isFile, stored]; rfl
  contents := holds.contents _ _ stored

def afterFiles (texts : List NamedText) (rest : Loading (List NamedText)) :
    Loading (List NamedText) where
  outcome := rest.outcome.map (texts ++ ·)
  calls := texts.flatMap (fun text => [.isFile text.path, .contents text.path]) ++ rest.calls
  events := texts.map (fun text => .fileRead text.path text.content.length) ++ rest.events

theorem afterFiles_nil (rest : Loading (List NamedText)) : afterFiles [] rest = rest := by
  obtain ⟨outcome, calls, events⟩ := rest
  cases outcome <;> rfl

theorem afterFile_afterFiles (text : NamedText) (texts : List NamedText)
    (rest : Loading (List NamedText)) :
    afterFile text.path text.content (afterFiles texts rest) = afterFiles (text :: texts) rest := by
  obtain ⟨outcome, calls, events⟩ := rest
  cases outcome <;> rfl

theorem Reads.afterFiles {texts : List NamedText} {rest : List Text}
    {further : Loading (List NamedText)} (reads : Reads storage rest further)
    (hasTexts : ∀ text ∈ texts, HasText storage text) :
    Reads storage (texts.map NamedText.path ++ rest) (afterFiles texts further) := by
  induction texts with
  | nil =>
    rw [afterFiles_nil]
    exact reads
  | cons text texts ih =>
    obtain ⟨first, others⟩ := List.forall_mem_cons.mp hasTexts
    rw [← afterFile_afterFiles]
    exact .found first.isFile first.contents (ih others)

theorem exists_texts {paths : List Text} (found : ∀ path ∈ paths, (files path).isSome) :
    ∃ texts : List NamedText, texts.map NamedText.path = paths ∧
      ∀ text ∈ texts, files text.path = some text.content := by
  induction paths with
  | nil => exact ⟨[], rfl, nofun⟩
  | cons path paths ih =>
    obtain ⟨first, others⟩ := List.forall_mem_cons.mp found
    obtain ⟨content, stored⟩ := Option.isSome_iff_exists.mp first
    obtain ⟨texts, rfl, storedOthers⟩ := ih others
    exact ⟨⟨path, content⟩ :: texts, rfl, List.forall_mem_cons.mpr ⟨stored, storedOthers⟩⟩

/-! ## Parsing up to the first malformed text -/

theorem parseAll_append {texts : List NamedText} {documents : List NamedDocument}
    (rest : List NamedText) (parsed : parseAll texts = .ok documents) :
    parseAll (texts ++ rest) = (parseAll rest).map (documents ++ ·) := by
  induction texts generalizing documents with
  | nil =>
    cases parsed
    cases later : parseAll rest <;> simp [later, Except.map]
  | cons text texts ih =>
    rw [List.cons_append, parseAll]
    rw [parseAll] at parsed
    cases parses : Document.parse text.content with
    | error cause => simp [parses] at parsed
    | ok document =>
      simp only [parses] at parsed ⊢
      cases more : parseAll texts with
      | error error => simp [more, Except.map] at parsed
      | ok others =>
        rw [more] at parsed
        cases parsed
        rw [ih more]
        cases parseAll rest <;> rfl

/-- Where every text is well formed, all documents are returned, in order. -/
theorem exists_documents {texts : List NamedText}
    (wellFormed : ∀ text ∈ texts, ∃ document, Document.parse text.content = .ok document) :
    ∃ documents : List NamedDocument, parseAll texts = .ok documents ∧
      documents.map NamedDocument.path = texts.map NamedText.path ∧
      ∀ named ∈ documents, ∃ text ∈ texts, text.path = named.path ∧
        Document.parse text.content = .ok named.document := by
  induction texts with
  | nil => exact ⟨[], rfl, rfl, nofun⟩
  | cons text texts ih =>
    obtain ⟨⟨document, parses⟩, others⟩ := List.forall_mem_cons.mp wellFormed
    obtain ⟨documents, parsed, samePaths, origins⟩ := ih others
    refine ⟨⟨text.path, document⟩ :: documents, ?_, congrArg (text.path :: ·) samePaths, ?_⟩
    · rw [parseAll]
      simp only [parses, parsed]
      rfl
    · refine List.forall_mem_cons.mpr ⟨⟨text, List.mem_cons_self, rfl, parses⟩, ?_⟩
      intro named member
      obtain ⟨origin, inside, origins⟩ := origins named member
      exact ⟨origin, List.mem_cons_of_mem _ inside, origins⟩

/-- Behind well-formed texts the first malformed one decides, whatever comes after it. -/
theorem parseAll_of_malformed {front : List NamedText} {text : NamedText} (back : List NamedText)
    {cause : ParseError}
    (wellFormed : ∀ other ∈ front, ∃ document, Document.parse other.content = .ok document)
    (malformed : Document.parse text.content = .error cause) :
    parseAll (front ++ text :: back) = .error (.malformed text.path cause) := by
  obtain ⟨documents, parsed, _, _⟩ := exists_documents wellFormed
  rw [parseAll_append _ parsed, parseAll]
  simp only [malformed]
  rfl

theorem loadDocuments_of_reads {paths : List Text} {texts : Loading (List NamedText)}
    (reads : Reads storage paths texts) :
    loadDocuments storage (.files paths) =
      .ok { texts with outcome := texts.outcome >>= parseAll } := by
  rw [loadDocuments, readInputs, readFiles_eq_ok_iff.mpr reads]
  rfl

/-! ## Inputs without failure -/

def HasDocument (storage : Storage) (named : NamedDocument) : Prop :=
  ∃ content, HasText storage ⟨named.path, content⟩ ∧ Document.parse content = .ok named.document

/-- The documents of inputs that are all there and all well formed. -/
def Supplies (storage : Storage) : Inputs → List NamedDocument → Prop
  | .standardInput, documents =>
    ∃ document, Document.parse storage.standardInput = .ok document ∧
      documents = [⟨standardInputPath, document⟩]
  | .files paths, documents =>
    documents.map NamedDocument.path = paths ∧ ∀ named ∈ documents, HasDocument storage named

theorem exists_texts_of_documents {documents : List NamedDocument}
    (hasDocuments : ∀ named ∈ documents, HasDocument storage named) :
    ∃ texts : List NamedText, texts.map NamedText.path = documents.map NamedDocument.path ∧
      (∀ text ∈ texts, HasText storage text) ∧ parseAll texts = .ok documents := by
  induction documents with
  | nil => exact ⟨[], rfl, nofun, rfl⟩
  | cons named documents ih =>
    obtain ⟨⟨content, hasText, parses⟩, others⟩ := List.forall_mem_cons.mp hasDocuments
    obtain ⟨texts, samePaths, hasTexts, parsed⟩ := ih others
    refine ⟨⟨named.path, content⟩ :: texts, congrArg (named.path :: ·) samePaths,
      List.forall_mem_cons.mpr ⟨hasText, hasTexts⟩, ?_⟩
    rw [parseAll]
    simp only [parses, parsed]
    rfl

theorem loadDocuments_of_supplies {inputs : Inputs} {documents : List NamedDocument}
    (supplies : Supplies storage inputs documents) :
    ∃ loading, loadDocuments storage inputs = .ok loading ∧ loading.outcome = .ok documents := by
  cases inputs with
  | standardInput =>
    obtain ⟨document, parses, rfl⟩ := supplies
    refine ⟨_, rfl, ?_⟩
    show parseAll [⟨standardInputPath, storage.standardInput⟩] = _
    rw [parseAll]
    simp only [parses]
    rfl
  | files paths =>
    obtain ⟨rfl, hasDocuments⟩ := supplies
    obtain ⟨texts, samePaths, hasTexts, parsed⟩ := exists_texts_of_documents hasDocuments
    have ends : Reads storage [] ⟨.ok [], [], []⟩ := .nothing
    have reads := ends.afterFiles hasTexts
    rw [List.append_nil, samePaths] at reads
    refine ⟨_, loadDocuments_of_reads reads, ?_⟩
    show Except.bind (Except.ok (texts ++ [])) parseAll = _
    rw [List.append_nil]
    exact parsed

/-! ## Both passes -/

def callsFor (paths : List Text) : List Call :=
  paths.flatMap fun path => [.isFile path, .contents path]

def reportsOn (files : Text → Option Text) (paths : List Text) : List Event :=
  paths.filterMap fun path => (files path).map fun content => .fileRead path content.length

theorem calls_afterFiles (texts : List NamedText) (rest : Loading (List NamedText)) :
    (afterFiles texts rest).calls = callsFor (texts.map NamedText.path) ++ rest.calls := by
  rw [afterFiles, callsFor, List.flatMap_map]

theorem events_afterFiles {texts : List NamedText} (rest : Loading (List NamedText))
    (stored : ∀ text ∈ texts, files text.path = some text.content) :
    (afterFiles texts rest).events = reportsOn files (texts.map NamedText.path) ++ rest.events := by
  have reports : reportsOn files (texts.map NamedText.path) =
      texts.map fun text => .fileRead text.path text.content.length := by
    induction texts with
    | nil => rfl
    | cons text texts ih =>
      obtain ⟨first, others⟩ := List.forall_mem_cons.mp stored
      rw [List.map_cons, List.map_cons, ← ih others]
      simp [reportsOn, first]
  rw [reports, afterFiles]

theorem loadDocuments_of_missing (holds : storage.Holds files) {before after : List Text}
    {path : Text} (found : ∀ other ∈ before, (files other).isSome) (missing : files path = none) :
    loadDocuments storage (.files (before ++ path :: after)) =
      .ok ⟨.error (.fileNotFound path), callsFor before ++ [.isFile path],
        reportsOn files before⟩ := by
  obtain ⟨texts, rfl, stored⟩ := exists_texts found
  have absent : storage.isFile path = .ok false := by rw [holds.isFile, missing]; rfl
  have stops : Reads storage (path :: after) _ := .missing after absent
  have reads := stops.afterFiles fun text member => hasText_of_holds holds (stored text member)
  have events := events_afterFiles ⟨.error (.fileNotFound path), [.isFile path], []⟩ stored
  rw [loadDocuments_of_reads reads, calls_afterFiles, events, List.append_nil]
  rfl

theorem loadDocuments_of_found (holds : storage.Holds files) {texts : List NamedText}
    (stored : ∀ text ∈ texts, files text.path = some text.content) :
    loadDocuments storage (.files (texts.map NamedText.path)) =
      .ok ⟨parseAll texts, callsFor (texts.map NamedText.path),
        reportsOn files (texts.map NamedText.path)⟩ := by
  have ends : Reads storage [] ⟨.ok [], [], []⟩ := .nothing
  have reads := ends.afterFiles fun text member => hasText_of_holds holds (stored text member)
  have events := events_afterFiles ⟨.ok [], [], []⟩ stored
  rw [List.append_nil] at reads
  rw [loadDocuments_of_reads reads, calls_afterFiles, events, List.append_nil, List.append_nil,
    afterFiles]
  simp [Except.map, bind, Except.bind]

/-- Main result. The first missing path decides, even after malformed files, and nothing after it is
asked for. Where no path is missing, all files are read in order, and the first malformed one
decides; where none is malformed either, all documents are returned in order. -/
theorem loadDocuments_files (holds : storage.Holds files) (paths : List Text) :
    ∃ loading, loadDocuments storage (.files paths) = .ok loading ∧
      (∀ before path after, paths = before ++ path :: after →
        (∀ other ∈ before, (files other).isSome) → files path = none →
        loading.outcome = .error (.fileNotFound path) ∧
          loading.calls = callsFor before ++ [.isFile path] ∧
          loading.events = reportsOn files before) ∧
      ((∀ path ∈ paths, (files path).isSome) →
        loading.calls = callsFor paths ∧ loading.events = reportsOn files paths ∧
        (∀ before path after content cause, paths = before ++ path :: after →
          (∀ other ∈ before, ∀ text, files other = some text →
            ∃ document, Document.parse text = .ok document) →
          files path = some content → Document.parse content = .error cause →
          loading.outcome = .error (.malformed path cause)) ∧
        ((∀ path ∈ paths, ∀ text, files path = some text →
            ∃ document, Document.parse text = .ok document) →
          ∃ documents, loading.outcome = .ok documents ∧
            documents.map NamedDocument.path = paths ∧
            ∀ named ∈ documents, ∃ content, files named.path = some content ∧
              Document.parse content = .ok named.document)) := by
  obtain ⟨loading, loaded⟩ := exists_loadDocuments holds.reliable (.files paths)
  refine ⟨loading, loaded, ?_, ?_⟩
  · rintro before path after rfl found missing
    rw [loadDocuments_of_missing holds found missing] at loaded
    cases loaded
    exact ⟨rfl, rfl, rfl⟩
  · intro found
    obtain ⟨texts, rfl, stored⟩ := exists_texts found
    rw [loadDocuments_of_found holds stored] at loaded
    cases loaded
    refine ⟨rfl, rfl, ?_, ?_⟩
    · intro before path after content cause split wellFormed stands malformed
      obtain ⟨front, others, rfl, rfl, later⟩ := List.map_eq_append_iff.mp split
      obtain ⟨text, back, rfl, rfl, rfl⟩ := List.map_eq_cons_iff.mp later
      obtain ⟨storedFront, storedOthers⟩ := List.forall_mem_append.mp stored
      have same : text.content = content :=
        Option.some.inj ((storedOthers text List.mem_cons_self).symm.trans stands)
      refine parseAll_of_malformed back ?_ (same ▸ malformed)
      intro other member
      exact wellFormed other.path (List.mem_map_of_mem member) other.content
        (storedFront other member)
    · intro wellFormed
      obtain ⟨documents, parsed, samePaths, origins⟩ := exists_documents fun text member =>
        wellFormed text.path (List.mem_map_of_mem member) text.content (stored text member)
      refine ⟨documents, parsed, samePaths, ?_⟩
      intro named member
      obtain ⟨text, inside, samePath, parses⟩ := origins named member
      exact ⟨text.content, samePath ▸ stored text inside, parses⟩

/-- The second of four paths is malformed and the third one is missing: the third is reported. -/
theorem loadDocuments_files_missing :
    let paths := ["good", "bad", "none", "good"].map Text.ofString
    let stored := [(Text.ofString "good", some (Text.ofString "<p></p>")),
      (Text.ofString "bad", some (Text.ofString "<p>"))]
    let storage := Storage.ofFiles stored []
    storage.Holds (fun path => (stored.lookup path).join) ∧
      ∃ loading, loadDocuments storage (.files paths) = .ok loading ∧
        loading.outcome = .error (.fileNotFound (Text.ofString "none")) ∧
        loading.calls = [.isFile (Text.ofString "good"), .contents (Text.ofString "good"),
          .isFile (Text.ofString "bad"), .contents (Text.ofString "bad"),
          .isFile (Text.ofString "none")] ∧
        loading.events =
          [.fileRead (Text.ofString "good") 7, .fileRead (Text.ofString "bad") 3] := by
  intro paths stored storage
  have holds : storage.Holds (fun path => (stored.lookup path).join) :=
    Storage.holds_ofFiles [] (by decide)
  obtain ⟨loading, loaded, missing, _⟩ := loadDocuments_files holds paths
  obtain ⟨outcome, calls, events⟩ :=
    missing (["good", "bad"].map Text.ofString) (Text.ofString "none") [Text.ofString "good"]
      (by decide) (by decide) (by decide)
  exact ⟨holds, loading, loaded, outcome, calls.trans (by decide), events.trans (by decide)⟩

end Loading
end HtmlFragments
