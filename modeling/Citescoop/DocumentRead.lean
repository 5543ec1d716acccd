/-
The parser on the events of a document tree.  Between two children of an element
its state is known but for the text buffer and the citations that are left over;
from child to child it changes as the tree is read in document order.
-/
import Citescoop.DocumentWalk
import Citescoop.OpenElements

namespace Citescoop

open EventLoop ExceptFold

namespace DumpParser

variable {σ : Type} (lib : Library) (store : Store σ)

/-- The callback of an event, with the map orders that make no difference. -/
def readEvent (self : DumpParser σ) (event : Event) :
    Except DumpException (DumpParser σ) :=
  self.callback lib store ⟨event, fun _ => .ascending⟩

theorem startParser_callbacks (self : DumpParser σ) (events : List Event)
    (orders : ℕ → ℕ → MapOrder) :
    self.startParser lib store (callbacks events orders) =
      run (readEvent lib store) self.initializeParser events := by
  have hevents : List.Forall₂ (fun call event => call.event = event)
      (callbacks events orders) events := by
    have hsame : List.Forall₂ Eq ((callbacks events orders).map Callback.event)
        events := by simp
    exact List.forall₂_map_left_iff.mp hsame
  apply run_congr Valid _ _ _ hevents self.initializeParser_valid
  · intro state call event hvalid hevent
    exact hvalid.callback_orders hevent
  · intro state call next hvalid hcall
    exact hvalid.callback hcall

variable {lib store}

theorem isField_other {self : DumpParser σ} (name : OtherName) :
    self.isField name = false := by
  simp [isField, name.property]

theorem onEndField_of_not_isField {self : DumpParser σ} {name : Text}
    (hfield : self.isField name = false) : self.onEndField lib name = .ok self := by
  unfold onEndField
  simp only [isField, Bool.or_eq_false_iff, Bool.and_eq_false_imp] at hfield
  split_ifs <;> simp_all

section Element

variable {self : DumpParser σ} {name : Text}

theorem readEvent_characters (characters : Text) :
    self.readEvent lib store (.characters characters) =
      .ok (self.onCharacters characters) := rfl

theorem readEvent_startElement :
    self.readEvent lib store (.startElement name) = .ok (self.onStartElement name) := rfl

/-- The end of an element without a flag. -/
theorem readEvent_endElement (hname : name ∉ enclosingTags) :
    self.readEvent lib store (.endElement name) =
      (self.onEndField lib name).map fun next => { next with shouldStore := false } := by
  simp only [enclosingTags, List.mem_cons, List.not_mem_nil, or_false, not_or] at hname
  simp only [readEvent, callback, onEndElement, if_neg hname.1, if_neg hname.2.1,
    if_neg hname.2.2]

theorem onStartElement_of_isField (hname : name ∉ enclosingTags)
    (hfield : self.isField name = true) :
    self.onStartElement name = { self with textBuf := [], shouldStore := true } := by
  simp only [enclosingTags, List.mem_cons, List.not_mem_nil, or_false, not_or] at hname
  rw [onStartElement, if_neg hname.1, if_neg hname.2.1, if_neg hname.2.2, if_pos hfield]

theorem onStartElement_of_not_isField (hname : name ∉ enclosingTags)
    (hfield : self.isField name = false) :
    self.onStartElement name = { self with textBuf := [] } := by
  simp only [enclosingTags, List.mem_cons, List.not_mem_nil, or_false, not_or] at hname
  rw [onStartElement, if_neg hname.1, if_neg hname.2.1, if_neg hname.2.2, hfield]
  rfl

theorem foldlM_characters (lib : Library) (store : Store σ) (self : DumpParser σ)
    (hstore : self.shouldStore = true) (chunks : Chunks) :
    (chunks.map Event.characters).foldlM (readEvent lib store) self =
      .ok { self with textBuf := self.textBuf ++ chunks.text } := by
  induction chunks generalizing self with
  | nil => simp [Chunks.text, pure, Except.pure]
  | cons characters chunks ih =>
      have hfirst : self.readEvent lib store (.characters characters) =
          .ok { self with textBuf := self.textBuf ++ characters } := by
        rw [readEvent_characters, onCharacters, if_pos hstore]
      rw [List.map_cons, foldlM_cons_of_ok hfirst]
      apply (ih { self with textBuf := self.textBuf ++ characters } hstore).trans
      simp [Chunks.text]

/-- A field is read with all of its text, however it is cut. -/
theorem foldlM_leafEvents (lib : Library) (store : Store σ) (self : DumpParser σ)
    (hname : name ∉ enclosingTags) (hfield : self.isField name = true)
    (chunks : Chunks) :
    (leafEvents name chunks).foldlM (readEvent lib store) self =
      (({ self with textBuf := chunks.text, shouldStore := true } :
        DumpParser σ).onEndField lib name).map fun next =>
          { next with shouldStore := false } := by
  have hstart : self.readEvent lib store (.startElement name) =
      .ok { self with textBuf := [], shouldStore := true } := by
    rw [readEvent_startElement, onStartElement_of_isField hname hfield]
  have htext := foldlM_characters lib store
    { self with textBuf := [], shouldStore := true } rfl chunks
  rw [leafEvents, List.cons_append, foldlM_cons_of_ok hstart,
    foldlM_append_of_ok htext, foldlM_singleton,
    readEvent_endElement hname]
  rfl

/-- The text of any other element is passed over. -/
theorem foldlM_characters_ignored (lib : Library) (store : Store σ)
    (self : DumpParser σ) (hstore : self.shouldStore = false) (chunks : Chunks) :
    (chunks.map Event.characters).foldlM (readEvent lib store) self = .ok self := by
  induction chunks with
  | nil => rfl
  | cons characters chunks ih =>
      have hfirst : self.readEvent lib store (.characters characters) = .ok self := by
        rw [readEvent_characters, onCharacters, hstore]
        rfl
      rw [List.map_cons, foldlM_cons_of_ok hfirst, ih]

theorem foldlM_leafEvents_ignored (lib : Library) (store : Store σ)
    (self : DumpParser σ) (hname : name ∉ enclosingTags)
    (hfield : self.isField name = false) (hstore : self.shouldStore = false)
    (chunks : Chunks) :
    (leafEvents name chunks).foldlM (readEvent lib store) self =
      .ok { self with textBuf := [], shouldStore := false } := by
  have hstart : self.readEvent lib store (.startElement name) =
      .ok { self with textBuf := [] } := by
    rw [readEvent_startElement, onStartElement_of_not_isField hname hfield]
  have htext := foldlM_characters_ignored lib store { self with textBuf := [] } hstore
    chunks
  have hend : onEndField lib name ({ self with textBuf := [] } : DumpParser σ) =
      .ok { self with textBuf := [] } := onEndField_of_not_isField hfield
  rw [leafEvents, List.cons_append, foldlM_cons_of_ok hstart,
    foldlM_append_of_ok htext, foldlM_singleton,
    readEvent_endElement hname, hend]
  rfl

theorem notMem_enclosingTags (name : OtherName) : name.val ∉ enclosingTags := by
  simp [enclosingTags, name.property]

mutual

/-- What stands between the elements of a page leaves the parser as it is, but for
the text buffer. -/
theorem foldlM_filler (lib : Library) (store : Store σ) :
    (between : Filler) → (self : DumpParser σ) → self.shouldStore = false →
      ∃ textBuf, between.events.foldlM (readEvent lib store) self =
        .ok { self with textBuf := textBuf }
  | .characters text, self, hstore =>
      ⟨self.textBuf, foldlM_characters_ignored lib store self hstore [text]⟩
  | .element name content, self, hstore => by
      have hname := notMem_enclosingTags name
      have hstart : self.readEvent lib store (.startElement name) =
          .ok { self with textBuf := [] } := by
        rw [readEvent_startElement, onStartElement_of_not_isField hname
          (isField_other name)]
      rcases foldlM_fillers lib store content { self with textBuf := [] } hstore with
        ⟨textBuf, hcontent⟩
      have hend : onEndField lib name ({ self with textBuf := textBuf } : DumpParser σ) =
          .ok { self with textBuf := textBuf } :=
        onEndField_of_not_isField (isField_other name)
      refine ⟨textBuf, ?_⟩
      rw [Filler.events, List.cons_append, foldlM_cons_of_ok hstart,
        foldlM_append_of_ok hcontent, foldlM_singleton,
        readEvent_endElement hname, hend, ← hstore]
      rfl

theorem foldlM_fillers (lib : Library) (store : Store σ) :
    (fillers : List Filler) → (self : DumpParser σ) → self.shouldStore = false →
      ∃ textBuf, (Filler.eventsOf fillers).foldlM (readEvent lib store) self =
        .ok { self with textBuf := textBuf }
  | [], self, _ => ⟨self.textBuf, rfl⟩
  | between :: fillers, self, hstore => by
      rcases foldlM_filler lib store between self hstore with ⟨middle, hbetween⟩
      rcases foldlM_fillers lib store fillers { self with textBuf := middle } hstore with
        ⟨textBuf, hfillers⟩
      refine ⟨textBuf, ?_⟩
      rw [Filler.eventsOf, foldlM_append_of_ok hbetween, hfillers]

end

end Element

/-- What is not known between two children: the text buffer, and the citations as
long as no text has been read in the revision. -/
abbrev Hidden := Text × RevisionCitations

def betweenPages (stored : σ) (hidden : Hidden) : DumpParser σ :=
  { textBuf := hidden.1, currentCitations := hidden.2, stored := stored }

def withinPage (stored : σ) (inContributor : Bool) (page : PageState)
    (hidden : Hidden) : DumpParser σ where
  toPageState := page
  inPage := true
  inContributor := inContributor
  textBuf := hidden.1
  currentCitations := hidden.2
  stored := stored

def withinRevision (stored : σ) (page : PageState) (inContributor : Bool)
    (view : RevisionView) (hidden : Hidden) : DumpParser σ where
  toPageState := page
  inPage := true
  inRevision := true
  inContributor := inContributor
  textBuf := hidden.1
  currentCitations := view.citations?.getD hidden.2
  currentRevision := view.revision
  stored := stored

section Children

variable (lib : Library) (store : Store σ) (stored : σ) (page : PageState)

theorem filler_leads {ν : Type} (embed : ν → Hidden → DumpParser σ)
    (hstore : ∀ view hidden, (embed view hidden).shouldStore = false)
    (hhidden : ∀ view hidden textBuf, ({ embed view hidden with textBuf := textBuf } :
      DumpParser σ) = embed view (textBuf, hidden.2)) (between : Filler) :
    Leads (readEvent lib store) embed between.events (fun view => .ok view) embed := by
  constructor
  · intro view hidden next heffect
    cases heffect
    rcases foldlM_filler lib store between _ (hstore view hidden) with ⟨textBuf, hrun⟩
    exact ⟨(textBuf, hidden.2), by rw [hrun, hhidden]⟩
  · intro view hidden exception heffect
    cases heffect

/-- A field, where what it writes is known. -/
theorem leaf_leads {ν : Type} (embed : ν → Hidden → DumpParser σ) {name : Text}
    (hname : name ∉ enclosingTags)
    (hfield : ∀ view hidden, (embed view hidden).isField name = true)
    (chunks : Chunks) (effect : ν → Except DumpException ν)
    (hend : ∀ view hidden,
      (({ embed view hidden with textBuf := chunks.text, shouldStore := true } :
        DumpParser σ).onEndField lib name).map
          (fun next => ({ next with shouldStore := false } : DumpParser σ)) =
        (effect view).map fun next => embed next (chunks.text, hidden.2)) :
    Leads (readEvent lib store) embed (leafEvents name chunks) effect embed := by
  apply Leads.of_map fun _ hidden => (chunks.text, hidden.2)
  intro view hidden
  rw [foldlM_leafEvents lib store _ hname (hfield view hidden), hend]

theorem contributorChild_leads (child : ContributorChild) :
    Leads (readEvent lib store) (withinRevision stored page true) child.events
      (fun view => .ok (child.read view)) (withinRevision stored page true) := by
  cases child with
  | filler between =>
      exact filler_leads lib store _ (fun _ _ => rfl) (fun _ _ _ => rfl) between
  | username chunks =>
      apply leaf_leads lib store _ (by decide) (fun _ _ => by rfl)
      intro view hidden
      simp [onEndField, withinRevision, ContributorChild.read, Except.map]
  | id chunks =>
      apply leaf_leads lib store _ (by decide) (fun _ _ => by rfl)
      intro view hidden
      simp [onEndField, withinRevision, ContributorChild.read, Except.map]

/-- The contributor of a page leaves no trace. -/
theorem pageContributorChild_leads (child : ContributorChild) :
    Leads (readEvent lib store) (withinPage stored true) child.events
      (fun page => .ok page) (withinPage stored true) := by
  cases child with
  | filler between =>
      exact filler_leads lib store _ (fun _ _ => rfl) (fun _ _ _ => rfl) between
  | username chunks =>
      apply Leads.of_map fun _ hidden => ([], hidden.2)
      intro view hidden
      exact foldlM_leafEvents_ignored lib store _ (by decide) (by rfl) rfl chunks
  | id chunks =>
      apply leaf_leads lib store _ (by decide) (fun _ _ => by rfl)
      intro view hidden
      simp [onEndField, withinPage, Except.map]

/-- The contributor of a revision. -/
theorem contributor_leads (tree : ContributorTree) :
    Leads (readEvent lib store) (withinRevision stored page false) tree.events
      (fun view => .ok (tree.children.foldl ContributorChild.read view))
      (withinRevision stored page false) := by
  have hchildren := Leads.flatMap fun child (_ : child ∈ tree.children) =>
    contributorChild_leads lib store stored page child
  apply Leads.element (fun _ => withinRevision stored page true) id
    (fun view => .ok (tree.children.foldl ContributorChild.read view))
    (fun _ view => .ok view)
  · intro view hidden
    exact ⟨([], hidden.2), rfl⟩
  · intro _
    exact hchildren.congr fun view => foldlM_of_foldl _ _ view
  · intro view final hidden _
    exact ⟨hidden, rfl⟩

/-- The contributor of a page. -/
theorem pageContributor_leads (tree : ContributorTree) :
    Leads (readEvent lib store) (withinPage stored false) tree.events
      (fun page => .ok page) (withinPage stored false) := by
  have hchildren := Leads.flatMap fun child (_ : child ∈ tree.children) =>
    pageContributorChild_leads lib store stored child
  apply Leads.element (fun _ => withinPage stored true) id (fun page => .ok page)
    (fun _ page => .ok page)
  · intro page hidden
    exact ⟨([], hidden.2), rfl⟩
  · intro _
    apply hchildren.congr
    intro page
    rw [foldlM_of_foldl, List.foldl_fixed]
  · intro page final hidden _
    exact ⟨hidden, rfl⟩

theorem revisionChild_leads (child : RevisionChild) :
    Leads (readEvent lib store) (withinRevision stored page false) child.events
      (fun view => child.read lib view) (withinRevision stored page false) := by
  cases child with
  | filler between =>
      exact filler_leads lib store _ (fun _ _ => rfl) (fun _ _ _ => rfl) between
  | id chunks =>
      apply leaf_leads lib store _ (by decide) (fun _ _ => by rfl)
      intro view hidden
      simp [onEndField, withinRevision, RevisionChild.read, map_map]
  | parentid chunks =>
      apply leaf_leads lib store _ (by decide) (fun _ _ => by rfl)
      intro view hidden
      simp [onEndField, withinRevision, RevisionChild.read, map_map]
  | timestamp chunks =>
      apply leaf_leads lib store _ (by decide) (fun _ _ => by rfl)
      intro view hidden
      simp [onEndField, withinRevision, RevisionChild.read, Except.map]
  | text chunks =>
      apply leaf_leads lib store _ (by decide) (fun _ _ => by rfl)
      intro view hidden
      simp [onEndField, withinRevision, RevisionChild.read, map_map]
  | contributor tree => exact contributor_leads lib store stored page tree

/-- A revision is put down with its own data.  It has a text, so that nothing is
left of the citations from before it. -/
theorem revision_leads (tree : RevisionTree) :
    Leads (readEvent lib store) (withinPage stored false) tree.events
      (fun page => (tree.read lib).map fun view => page.addEntry view.entry)
      (withinPage stored false) := by
  have helement : Leads (readEvent lib store) (withinPage stored false) tree.events
      (fun page => (tree.read lib).bind fun view => .ok (page.addEntry view.entry))
      (withinPage stored false) := by
    apply Leads.element (fun page => withinRevision stored page false) (fun _ => {})
      (fun view => tree.children.foldlM (RevisionChild.read lib) view)
      (fun page view => .ok (page.addEntry view.entry))
    · intro page hidden
      exact ⟨([], hidden.2), rfl⟩
    · intro page
      exact Leads.flatMap fun child _ => revisionChild_leads lib store stored page child
    · intro page view hidden hread
      refine ⟨(hidden.1, view.entry), ?_⟩
      rcases tree.exists_citations hread with ⟨citations, hcitations⟩
      rcases view with ⟨revision, citations?⟩
      subst hcitations
      rfl
  exact helement

theorem pageChild_leads (child : PageChild) :
    Leads (readEvent lib store) (withinPage stored false) child.events
      (fun page => child.read lib page) (withinPage stored false) := by
  cases child with
  | filler between =>
      exact filler_leads lib store _ (fun _ _ => rfl) (fun _ _ _ => rfl) between
  | title chunks =>
      apply leaf_leads lib store _ (by decide) (fun _ _ => by rfl)
      intro page hidden
      simp [onEndField, withinPage, PageChild.read, Except.map]
  | id chunks =>
      apply leaf_leads lib store _ (by decide) (fun _ _ => by rfl)
      intro page hidden
      simp [onEndField, withinPage, PageChild.read, map_map]
  | contributor tree => exact pageContributor_leads lib store stored tree
  | revision tree => exact revision_leads lib store stored tree

theorem pageChildren_leads (tree : PageTree) :
    Leads (readEvent lib store) (withinPage stored false)
      (tree.children.flatMap PageChild.events)
      (fun page => tree.children.foldlM (PageChild.read lib) page)
      (withinPage stored false) :=
  Leads.flatMap fun child _ => pageChild_leads lib store stored child

/-- A page that is not at its end. -/
theorem openPage_leads (tree : PageTree) :
    Leads (readEvent lib store) betweenPages tree.openEvents
      (fun stored => (tree.read lib).map fun page => (stored, page))
      (fun view : σ × PageState => withinPage view.1 false view.2) := by
  apply Leads.enter (fun stored => withinPage stored false) (fun _ => {})
    (fun page => tree.children.foldlM (PageChild.read lib) page)
  · intro stored hidden
    exact ⟨([], hidden.2), rfl⟩
  · intro stored
    exact pageChildren_leads lib store stored tree

theorem page_leads (tree : PageTree) :
    Leads (readEvent lib store) betweenPages tree.events
      (fun stored => (DocumentChild.page tree).read lib store stored) betweenPages := by
  apply Leads.element (fun stored => withinPage stored false) (fun _ => {})
    (fun page => tree.children.foldlM (PageChild.read lib) page)
    (fun stored page => (page.makePageCitationList lib.sort fun _ => .ascending).map
      fun ended => store ended.revisionsToStore ended.currentPage stored)
  · intro stored hidden
    exact ⟨([], hidden.2), rfl⟩
  · intro stored
    exact pageChildren_leads lib store stored tree
  · intro stored page hidden _
    refine ⟨hidden, ?_⟩
    simp [readEvent, callback, onEndElement, onEndPage, withinPage, betweenPages, map_map]

theorem documentChild_leads (child : DocumentChild) :
    Leads (readEvent lib store) betweenPages child.events
      (fun stored => child.read lib store stored) betweenPages := by
  cases child with
  | filler between =>
      exact filler_leads lib store _ (fun _ _ => rfl) (fun _ _ _ => rfl) between
  | page tree => exact page_leads lib store tree

theorem root_start_leads (root : OtherName) :
    Leads (readEvent lib store) betweenPages [.startElement root]
      (fun stored => .ok stored) (betweenPages (σ := σ)) := by
  apply Leads.of_map fun _ hidden => ([], hidden.2)
  intro stored hidden
  rw [foldlM_singleton, readEvent_startElement, onStartElement_of_not_isField
    (notMem_enclosingTags root) (isField_other root)]
  rfl

theorem root_end_leads (root : OtherName) :
    Leads (readEvent lib store) betweenPages [.endElement root]
      (fun stored => .ok stored) (betweenPages (σ := σ)) := by
  apply Leads.of_map fun _ hidden => hidden
  intro stored hidden
  rw [foldlM_singleton, readEvent_endElement (notMem_enclosingTags root),
    onEndField_of_not_isField (isField_other root)]
  rfl

theorem openDocument_leads (document : DocumentTree) :
    Leads (readEvent lib store) betweenPages document.openEvents
      (fun stored => document.read lib store stored) betweenPages :=
  (root_start_leads lib store document.root).append
    (Leads.flatMap fun child _ => documentChild_leads lib store child)

theorem document_leads (document : DocumentTree) :
    Leads (readEvent lib store) betweenPages document.events
      (fun stored => document.read lib store stored) betweenPages := by
  apply ((openDocument_leads lib store document).append
    (root_end_leads lib store document.root)).congr
  intro stored
  cases document.read lib store stored <;> rfl

end Children

/-- The parser finds what a direct walk of the tree finds, whatever the order of
the children, what stands between them, and how the texts are cut: at the end of
the document, what the pages store; and before that, while a page is open, also
the title and the id of the page, and the revisions in it. -/
theorem startParser_document (lib : Library) (store : Store σ) (self : DumpParser σ)
    (document : DocumentTree) (orders : ℕ → ℕ → MapOrder) :
    (self.startParser lib store (callbacks document.events orders)).Shows betweenPages
        (document.walk lib store self.stored) ∧
      ∀ page : PageTree,
        (self.startParser lib store
            (callbacks (document.openEvents ++ page.openEvents) orders)).Shows
          (fun view : σ × PageState => withinPage view.1 false view.2)
          (do
            let stored ← document.walk lib store self.stored
            let state ← page.walk lib
            return (stored, state)) := by
  have hstart : self.initializeParser =
      betweenPages self.stored (self.textBuf, self.currentCitations) := rfl
  constructor
  · rw [startParser_callbacks, hstart, document.walk_eq_read]
    exact (document_leads lib store document).shows _ _
  · intro page
    have hopen := (openDocument_leads lib store document).append
      (openPage_leads lib store page)
    have hshows := hopen.shows self.stored (self.textBuf, self.currentCitations)
    rw [startParser_callbacks, hstart, document.walk_eq_read, page.walk_eq_read]
    convert hshows using 1
    cases document.read lib store self.stored with
    | error exception => rfl
    | ok stored => cases page.read lib <;> rfl

/-- How a parse of a document ends, whatever it stores to. -/
theorem startParser_read (lib : Library) (store : Store σ) (parser : DumpParser σ)
    (document : DocumentTree) (orders : ℕ → ℕ → MapOrder) :
    (∃ stored, document.read lib store parser.stored = .ok stored ∧
      (parser.startParser lib store (callbacks document.events orders)).exception? = none ∧
      (parser.startParser lib store (callbacks document.events orders)).state.stored =
        stored) ∨
    ∃ exception, document.read lib store parser.stored = .error exception ∧
      (parser.startParser lib store (callbacks document.events orders)).exception? =
        some exception := by
  have hstart : parser.initializeParser =
      betweenPages parser.stored (parser.textBuf, parser.currentCitations) := rfl
  rw [startParser_callbacks, hstart]
  have hleads := document_leads lib store document
  cases hread : document.read lib store parser.stored with
  | ok stored =>
      obtain ⟨hidden, hrun⟩ := hleads.ok _ (parser.textBuf, parser.currentCitations) _ hread
      obtain ⟨hnone, hstate⟩ := run_of_ok hrun
      exact Or.inl ⟨stored, rfl, hnone, by rw [hstate]; rfl⟩
  | error exception =>
      have hrun := hleads.error _ (parser.textBuf, parser.currentCitations) _ hread
      exact Or.inr ⟨exception, rfl, run_of_error hrun⟩

/-- The parser that returns what it finds, on a document. -/
theorem parseXML_document (lib : Library) (document : DocumentTree)
    (orders : ℕ → ℕ → MapOrder) :
    parseXML lib { stored := {} } (callbacks document.events orders) =
      (document.read lib InMemory.store {}).map fun stored => (stored.pages, stored.revisions) := by
  have houtcome : parseOutcome lib { stored := {} } (callbacks document.events orders) =
      startParser lib InMemory.store { stored := {} } (callbacks document.events orders) := rfl
  rw [parseXML, houtcome]
  rcases startParser_read lib InMemory.store { stored := {} } document orders with
    ⟨stored, hread, hnone, hstored⟩ | ⟨exception, hread, hsome⟩
  · rw [hread, hnone, ← hstored]
    rfl
  · rw [hread, hsome]
    rfl

end DumpParser

end Citescoop
