/-
`StreamingDumpParser`, which writes pages and revisions out where `DumpParser`
collects them.  What the callbacks do does not depend on what is stored, so an
agreement between two stores that holds after every page holds at every point.
-/
import Citescoop.DumpRun

namespace Citescoop

open ExceptFold

/-- The messages written through the two writers, and the counters. -/
structure Streamed where
  pages : List Page := []
  revisions : List Revision := []
  pagesWritten : UInt64 := 0
  revisionsWritten : UInt64 := 0
deriving Repr, DecidableEq

namespace Streamed

def writePage (page : Page) (streamed : Streamed) : Streamed :=
  { streamed with
    pages := streamed.pages ++ [page]
    pagesWritten := streamed.pagesWritten + 1 }

def writeRevision (streamed : Streamed) (revision : Revision) : Streamed :=
  { streamed with
    revisions := streamed.revisions ++ [revision]
    revisionsWritten := streamed.revisionsWritten + 1 }

/-- `StreamingDumpParser::Store`. -/
def store : Store Streamed := fun revisions page streamed =>
  (revisions.toList.map Prod.snd).foldl writeRevision (streamed.writePage page)

end Streamed

abbrev StreamingDumpParser := DumpParser Streamed

namespace StreamingDumpParser

variable (lib : Library) (self : StreamingDumpParser) (calls : List Callback)

/-- The parse that `StreamingDumpParser::ParseXML` starts.  The writers are new,
the counters are not set back. -/
def parseOutcome : EventLoop.Outcome DumpException StreamingDumpParser :=
  DumpParser.startParser lib Streamed.store
    { self with stored := { self.stored with pages := [], revisions := [] } } calls

/-- `StreamingDumpParser::ParseXML`. -/
def parseXML : Except DumpException (UInt64 × UInt64) :=
  match (parseOutcome lib self calls).exception? with
  | some exception => .error exception
  | none => .ok ((parseOutcome lib self calls).state.stored.pagesWritten,
      (parseOutcome lib self calls).state.stored.revisionsWritten)

end StreamingDumpParser

namespace DumpParser

variable {σ τ : Type} {lib : Library} {store : Store σ} {store' : Store τ}

/-- The same parser over another store. -/
def withStored (self : DumpParser σ) (stored : τ) : DumpParser τ :=
  { self with stored := stored }

theorem onStartElement_withStored (name : Text) (self : DumpParser σ) (stored : τ) :
    (self.withStored stored).onStartElement name =
      (self.onStartElement name).withStored stored := by
  have hfield : (self.withStored stored).isField name = self.isField name := rfl
  unfold onStartElement
  rw [hfield]
  split_ifs <;> rfl

theorem onCharacters_withStored (characters : Text) (self : DumpParser σ)
    (stored : τ) :
    (self.withStored stored).onCharacters characters =
      (self.onCharacters characters).withStored stored := by
  by_cases hstore : self.shouldStore <;> simp [onCharacters, withStored, hstore]

theorem onEndField_withStored (name : Text) (self : DumpParser σ) (stored : τ) :
    (self.withStored stored).onEndField lib name =
      (self.onEndField lib name).map fun next => next.withStored stored := by
  unfold onEndField
  simp only [apply_ite (Except.map _), map_map]
  rfl

/-- Short of the end of a page, a callback neither reads nor writes the store. -/
theorem callback_withStored (lib : Library) (store : Store σ) (store' : Store τ)
    {call : Callback} (hevent : call.event ≠ .endElement Tag.page.name)
    (self : DumpParser σ) (stored : τ) :
    (self.withStored stored).callback lib store' call =
      (self.callback lib store call).map fun next => next.withStored stored := by
  unfold DumpParser.callback
  cases hcall : call.event with
  | startElement name =>
      exact congrArg Except.ok (onStartElement_withStored name self stored)
  | endElement name =>
      have hpage : name ≠ Tag.page.name := by
        intro hname
        exact hevent (by rw [hcall, hname])
      simp only [onEndElement, if_neg hpage]
      split_ifs
      · rfl
      · rfl
      · rw [onEndField_withStored, map_map, map_map]
        rfl
  | characters characters =>
      exact congrArg Except.ok (onCharacters_withStored characters self stored)
  | warning text => rfl
  | error text => rfl
  | fatalError text => rfl

theorem Valid.withStored {self : DumpParser σ} (hvalid : self.Valid) (stored : τ) :
    (self.withStored stored).Valid :=
  ⟨hvalid.page, hvalid.idle⟩

/-- The revisions of a page come under their ids. -/
def KeyedById (revisions : StdMap UInt64 Revision) : Prop :=
  ∀ (revisionId : UInt64) (revision : Revision),
    revisions[revisionId]? = some revision → revision.revisionId = revisionId

/-- Storing the same page keeps the two stores in agreement. -/
def StoresAgree (store : Store σ) (store' : Store τ) (agree : σ → τ → Prop) : Prop :=
  ∀ revisions page stored stored', KeyedById revisions → agree stored stored' →
    agree (store revisions page stored) (store' revisions page stored')

/-- The parser when a page with these citations has ended. -/
def pageEnded (store : Store σ) (page : PageState) (self : DumpParser σ) :
    DumpParser σ :=
  { self with
    toPageState := {}
    inPage := false
    shouldStore := false
    stored := store page.revisionsToStore page.currentPage self.stored }

theorem callback_endPage (lib : Library) (store : Store σ) {call : Callback}
    (hevent : call.event = .endElement Tag.page.name) (self : DumpParser σ) :
    self.callback lib store call =
      (self.toPageState.makePageCitationList lib.sort call.orders).map fun page =>
        self.pageEnded store page := by
  simp only [DumpParser.callback, hevent, onEndElement, ↓reduceIte, onEndPage, map_map]
  rfl

/-- One parser, over two stores in agreement. -/
structure SameBut (agree : σ → τ → Prop) (parser : DumpParser σ)
    (other : DumpParser τ) : Prop where
  same : other = parser.withStored other.stored
  agree : agree parser.stored other.stored
  valid : parser.Valid

variable {agree : σ → τ → Prop} {self : DumpParser σ} {other : DumpParser τ}

theorem SameBut.endPage (hstores : StoresAgree store store' agree)
    (hsame : self.SameBut agree other) {orders : ℕ → MapOrder} {page : PageState}
    (hmake : self.toPageState.makePageCitationList lib.sort orders = .ok page) :
    agree (self.pageEnded store page).stored (other.pageEnded store' page).stored := by
  apply hstores
  · exact (hsame.valid.page.makePageCitationList_closed hmake).2
  · exact hsame.agree

/-- One callback, made to both parsers. -/
theorem SameBut.callback (hstores : StoresAgree store store' agree)
    (hsame : self.SameBut agree other) {call call' : Callback}
    (hevent : call.event = call'.event) :
    (∃ exception, self.callback lib store call = .error exception ∧
      other.callback lib store' call' = .error exception) ∨
    ∃ next next', self.callback lib store call = .ok next ∧
      other.callback lib store' call' = .ok next' ∧ next.SameBut agree next' := by
  have hother : other.Valid := hsame.same ▸ hsame.valid.withStored other.stored
  rw [← hother.callback_orders hevent]
  by_cases hpage : call.event = .endElement Tag.page.name
  · have hcall := callback_endPage lib store hpage self
    have hcall' := callback_endPage lib store' hpage other
    have hstate : other.toPageState = self.toPageState := by rw [hsame.same]; rfl
    rw [hstate] at hcall'
    cases hmake : self.toPageState.makePageCitationList lib.sort call.orders with
    | error exception =>
        rw [hmake] at hcall hcall'
        exact Or.inl ⟨exception, hcall, hcall'⟩
    | ok page =>
        rw [hmake] at hcall hcall'
        refine Or.inr ⟨_, _, hcall, hcall', ?_, hsame.endPage hstores hmake,
          hsame.valid.callback hcall⟩
        rw [hsame.same]
        rfl
  · have hcall := callback_withStored lib store store' hpage self other.stored
    rw [← hsame.same] at hcall
    rw [hcall]
    cases hnext : self.callback lib store call with
    | error exception => exact Or.inl ⟨exception, rfl, rfl⟩
    | ok next =>
        refine Or.inr ⟨next, next.withStored other.stored, rfl, rfl, rfl, ?_,
          hsame.valid.callback hnext⟩
        rcases callback_stored hnext with ⟨hend, -⟩ | ⟨-, hstored⟩
        · exact absurd hend hpage
        · exact hstored.symm ▸ hsame.agree

/-- Two parses of one document in step, whatever the orders in which either of
them goes through its maps. -/
theorem SameBut.startParser (lib : Library) (hstores : StoresAgree store store' agree)
    (hsame : other = self.withStored other.stored)
    (hagree : agree self.stored other.stored) {calls calls' : List Callback}
    (hcalls : List.Forall₂ (fun call call' => call.event = call'.event) calls calls') :
    (self.startParser lib store calls).state.SameBut agree
        (other.startParser lib store' calls').state ∧
      (self.startParser lib store calls).exception? =
        (other.startParser lib store' calls').exception? ∧
      (self.startParser lib store calls).returned =
        (other.startParser lib store' calls').returned := by
  apply EventLoop.run_simulation (SameBut agree) _ _ hcalls
  · refine ⟨?_, hagree, self.initializeParser_valid⟩
    rw [hsame]
    rfl
  · intro state state' call call' hstate hevent
    exact hstate.callback hstores hevent

/-- The number of pages that a callback ends. -/
def pagesEnded (call : Callback) : ℕ :=
  if call.event = .endElement Tag.page.name then 1 else 0

theorem sum_pagesEnded (calls : List Callback) :
    (calls.map pagesEnded).sum =
      (calls.map Callback.event).count (.endElement Tag.page.name) := by
  induction calls with
  | nil => rfl
  | cons call calls ih =>
      simp only [List.map_cons, List.sum_cons, List.count_cons, ih, pagesEnded,
        beq_iff_eq]
      omega

theorem callback_pages_length {self next : DumpParser InMemory} {call : Callback}
    (hcall : self.callback lib InMemory.store call = .ok next) :
    next.stored.pages.length = self.stored.pages.length + pagesEnded call := by
  rcases callback_stored hcall with ⟨hend, page, -, hstored⟩ | ⟨hend, hstored⟩
  · simp [hstored, InMemory.store, pagesEnded, hend]
  · simp [hstored, pagesEnded, hend]

/-- Every page that has ended is stored, and nothing of the one that has not. -/
theorem parseOutcome_pages_length (lib : Library) (self : DumpParser InMemory)
    (calls : List Callback) :
    (parseOutcome lib self calls).state.stored.pages.length =
      ((calls.take (parseOutcome lib self calls).returned).map Callback.event).count
        (.endElement Tag.page.name) := by
  rw [← sum_pagesEnded]
  have hlength : (parseOutcome lib self calls).state.stored.pages.length =
      0 + ((calls.take (parseOutcome lib self calls).returned).map pagesEnded).sum := by
    apply EventLoop.run_measure
      (fun state : DumpParser InMemory => state.stored.pages.length)
    intro state call next hcall
    exact callback_pages_length hcall
  rw [hlength, Nat.zero_add]

end DumpParser

namespace Streamed

/-- The revisions under their ids, the first of each id. -/
def keepFirst (streamed : Streamed) : StdMap UInt64 Revision :=
  MapEntries.insertAll ∅
    (streamed.revisions.map fun revision => (revision.revisionId, revision))

/-- What is written out is what is held in memory, and is counted. -/
structure Mirrors (memory : InMemory) (streamed : Streamed) : Prop where
  pages : streamed.pages = memory.pages
  revisions : streamed.keepFirst = memory.revisions
  pagesWritten : streamed.pagesWritten = UInt64.ofNat streamed.pages.length
  revisionsWritten :
    streamed.revisionsWritten = UInt64.ofNat streamed.revisions.length

theorem foldl_writeRevision (revisions : List Revision) (streamed : Streamed) :
    revisions.foldl writeRevision streamed =
      { streamed with
        revisions := streamed.revisions ++ revisions
        revisionsWritten :=
          streamed.revisionsWritten + UInt64.ofNat revisions.length } := by
  induction revisions generalizing streamed with
  | nil => simp
  | cons revision revisions ih =>
      rw [List.foldl_cons, ih, writeRevision]
      simp [add_assoc, add_comm]

theorem keepFirst_append (streamed : Streamed) (entries : List (UInt64 × Revision))
    (hentries : ∀ entry ∈ entries, entry.2.revisionId = entry.1) :
    keepFirst { streamed with
        revisions := streamed.revisions ++ entries.map Prod.snd } =
      MapEntries.insertAll streamed.keepFirst entries := by
  have hkeys : (entries.map Prod.snd).map
      (fun revision => (revision.revisionId, revision)) = entries := by
    rw [List.map_map]
    refine (List.map_congr_left fun entry hentry => ?_).trans (List.map_id entries)
    exact Prod.ext (hentries entry hentry) rfl
  simp only [keepFirst, List.map_append, hkeys]
  exact List.foldl_append

theorem mirrors_store : DumpParser.StoresAgree InMemory.store store Mirrors := by
  intro revisions page memory streamed hkeyed hmirrors
  have hids : ∀ entry ∈ revisions.toList, entry.2.revisionId = entry.1 := by
    rintro ⟨revisionId, revision⟩ hentry
    apply hkeyed
    exact Std.ExtTreeMap.mem_toList_iff_getElem?_eq_some.mp hentry
  rw [store, foldl_writeRevision]
  constructor
  · exact congrArg (· ++ [page]) hmirrors.pages
  · exact (keepFirst_append (streamed.writePage page) _ hids).trans
      (congrArg (MapEntries.insertAll · revisions.toList) hmirrors.revisions)
  · simp [writePage, hmirrors.pagesWritten]
  · simp [writePage, hmirrors.revisionsWritten]

end Streamed

section NewParsers

variable (lib : Library) (events : List Event) (orders orders' : ℕ → ℕ → MapOrder)

/-- The parse of a new parser that holds what it finds in memory. -/
def DumpParser.parseNew : EventLoop.Outcome DumpException (DumpParser InMemory) :=
  DumpParser.parseOutcome lib { stored := {} } (callbacks events orders)

namespace StreamingDumpParser

/-- The parse of a new parser that streams what it finds. -/
def parseNew : EventLoop.Outcome DumpException StreamingDumpParser :=
  parseOutcome lib { stored := {} } (callbacks events orders)

/-- The two, in step. -/
theorem parseNew_sameBut :
    DumpParser.SameBut Streamed.Mirrors (DumpParser.parseNew lib events orders).state
        (parseNew lib events orders').state ∧
      (DumpParser.parseNew lib events orders).exception? =
        (parseNew lib events orders').exception? ∧
      (DumpParser.parseNew lib events orders).returned =
        (parseNew lib events orders').returned := by
  apply DumpParser.SameBut.startParser lib Streamed.mirrors_store
  · rfl
  · exact ⟨rfl, rfl, rfl, rfl⟩
  · exact callbacks_same_events events orders orders'

/-- At every point of a document, also where a callback throws, the streamed
messages are what is held in memory: the pages that have ended, in order, and
the revisions, of which the memory keeps the first under each id. -/
theorem parseNew_mirrors :
    (parseNew lib events orders').exception? =
        (DumpParser.parseNew lib events orders).exception? ∧
      (parseNew lib events orders').returned =
        (DumpParser.parseNew lib events orders).returned ∧
      Streamed.Mirrors (DumpParser.parseNew lib events orders).state.stored
        (parseNew lib events orders').state.stored ∧
      (DumpParser.parseNew lib events orders).state.stored.pages.length =
        (events.take (DumpParser.parseNew lib events orders).returned).count
          (.endElement Tag.page.name) := by
  rcases parseNew_sameBut lib events orders orders' with
    ⟨hsame, hexception, hreturned⟩
  refine ⟨hexception.symm, hreturned.symm, hsame.agree, ?_⟩
  have hlength := DumpParser.parseOutcome_pages_length lib { stored := {} }
    (callbacks events orders)
  rw [List.map_take, map_event_callbacks] at hlength
  exact hlength

/-- Both kinds of parse throw the same, or both return: the one the pages and
revisions, the other their numbers. -/
theorem parseXML_counts :
    parseXML lib { stored := {} } (callbacks events orders') =
      (DumpParser.parseXML lib { stored := {} } (callbacks events orders)).map
        fun result => (UInt64.ofNat result.1.length, UInt64.ofNat
          (parseNew lib events orders').state.stored.revisions.length) := by
  rcases parseNew_sameBut lib events orders orders' with ⟨hsame, hexception, -⟩
  unfold parseXML DumpParser.parseXML
  rw [← DumpParser.parseNew, ← parseNew, ← hexception]
  cases (DumpParser.parseNew lib events orders).exception? with
  | some exception => rfl
  | none =>
      simp only [Except.map, hsame.agree.pagesWritten, hsame.agree.pages,
        hsame.agree.revisionsWritten]

end StreamingDumpParser

end NewParsers

end Citescoop
