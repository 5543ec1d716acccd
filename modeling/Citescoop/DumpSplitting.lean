/-
Dumps that are cut between pages.  What is stored is put together from the parts:
pages and messages are appended, and of the revisions with one id the first is kept.
-/
import Citescoop.DocumentRead
import Citescoop.ExtractFiles

namespace Citescoop

open EventLoop ExceptFold StateSimulation

/-- Pages one after the other, and the revisions that are not known yet. -/
instance : Monoid InMemory where
  mul before after := {
    pages := before.pages ++ after.pages
    revisions := MapEntries.insertAll before.revisions after.revisions.toList }
  one := {}
  mul_assoc _ _ _ :=
    congrArg₂ InMemory.mk (List.append_assoc ..) (MapEntries.insertAll_insertAll_toList ..)
  one_mul _ := congrArg₂ InMemory.mk rfl (MapEntries.insertAll_empty_toList _)
  mul_one _ :=
    congrArg₂ InMemory.mk (List.append_nil _) (MapEntries.insertAll_toList_empty _)

/-- Messages one after the other, and both counters. -/
instance : Monoid Streamed where
  mul before after := {
    pages := before.pages ++ after.pages
    revisions := before.revisions ++ after.revisions
    pagesWritten := before.pagesWritten + after.pagesWritten
    revisionsWritten := before.revisionsWritten + after.revisionsWritten }
  one := {}
  mul_assoc first second third := (Streamed.mk.injEq ..).mpr
    ⟨List.append_assoc .., List.append_assoc .., add_assoc .., add_assoc ..⟩
  one_mul streamed := (Streamed.mk.injEq ..).mpr ⟨rfl, rfl, zero_add _, zero_add _⟩
  mul_one streamed := (Streamed.mk.injEq ..).mpr
    ⟨List.append_nil _, List.append_nil _, add_zero _, add_zero _⟩

/-- Storing a page after what is stored already. -/
def Store.Appends {σ : Type} [Monoid σ] (store : Store σ) : Prop :=
  ∀ revisions page before stored,
    store revisions page (before * stored) = before * store revisions page stored

theorem InMemory.store_appends : Store.Appends InMemory.store := by
  intro revisions page before stored
  exact congrArg₂ InMemory.mk (List.append_assoc ..)
    (MapEntries.insertAll_insertAll_toList ..)

theorem Streamed.foldl_writeRevision_mul (revisions : List Revision)
    (before streamed : Streamed) :
    revisions.foldl writeRevision (before * streamed) =
      before * revisions.foldl writeRevision streamed := by
  induction revisions generalizing streamed with
  | nil => rfl
  | cons revision revisions ih =>
      have hrevision : (before * streamed).writeRevision revision =
          before * streamed.writeRevision revision :=
        (Streamed.mk.injEq ..).mpr ⟨rfl, List.append_assoc .., rfl, add_assoc ..⟩
      rw [List.foldl_cons, hrevision, ih, List.foldl_cons]

theorem Streamed.store_appends : Store.Appends Streamed.store := by
  intro revisions page before streamed
  have hpage : (before * streamed).writePage page = before * streamed.writePage page :=
    (Streamed.mk.injEq ..).mpr ⟨List.append_assoc .., rfl, add_assoc .., rfl⟩
  rw [store, store, hpage, foldl_writeRevision_mul]

section Documents

variable {σ : Type} (lib : Library)

theorem DocumentChild.read_mul [Monoid σ] {store : Store σ} (hstore : store.Appends)
    (before stored : σ) (child : DocumentChild) :
    child.read lib store (before * stored) = (child.read lib store stored).map (before * ·) := by
  cases child with
  | filler between => rfl
  | page tree =>
      rw [read, read]
      cases tree.read lib with
      | error exception => rfl
      | ok page =>
          simp only [Except.bind, map_map]
          congr 1
          funext ended
          exact hstore ended.revisionsToStore ended.currentPage before stored

/-- A document is read as its parts are. -/
theorem DocumentTree.read_parts [Monoid σ] {store : Store σ} (hstore : store.Appends)
    {whole : DocumentTree} {parts : List DocumentTree}
    (hparts : whole.children = parts.flatMap DocumentTree.children) :
    whole.read lib store 1 =
      (parts.mapM fun part : DocumentTree => part.read lib store 1).map List.prod := by
  rw [read, hparts]
  exact foldlM_flatMap_one (fun before stored child =>
    DocumentChild.read_mul lib hstore before stored child) parts DocumentTree.children

end Documents

theorem InMemory.prod_eq (parts : List InMemory) :
    parts.prod = {
      pages := parts.flatMap InMemory.pages
      revisions := (parts.map InMemory.revisions).foldr
        (fun first rest => MapEntries.insertAll first rest.toList) ∅ } := by
  induction parts with
  | nil => rfl
  | cons part parts ih =>
      rw [List.prod_cons, ih]
      rfl

theorem Streamed.pages_prod (parts : List Streamed) :
    parts.prod.pages = parts.flatMap Streamed.pages := by
  induction parts with
  | nil => rfl
  | cons part parts ih =>
      rw [List.prod_cons, List.flatMap_cons, ← ih]
      rfl

theorem Streamed.revisions_prod (parts : List Streamed) :
    parts.prod.revisions = parts.flatMap Streamed.revisions := by
  induction parts with
  | nil => rfl
  | cons part parts ih =>
      rw [List.prod_cons, List.flatMap_cons, ← ih]
      rfl

section Calls

variable (lib : Library) (inputs : InputLibrary)

/-- A call whose stream holds this document. -/
def ExtractCall.On (call : ExtractCall) (document : DocumentTree) : Prop :=
  call.events inputs = document.events

variable {lib inputs}

theorem ExtractCall.On.extract {call : ExtractCall} {document : DocumentTree}
    (hon : call.On inputs document) :
    call.extract lib inputs =
      (document.read lib InMemory.store 1).map fun stored => (stored.pages, stored.revisions) := by
  have hcall : call.extract lib inputs =
      DumpParser.parseXML lib { stored := {} } (callbacks (call.events inputs) call.orders) := by
    unfold ExtractCall.extract ExtractCall.events
    cases call.extractor <;> rfl
  rw [hcall, hon, DumpParser.parseXML_document]
  rfl

theorem ExtractCall.On.exception?_eq {call : ExtractCall} {document : DocumentTree}
    (hon : call.On inputs document) :
    (call.inMemory lib inputs).exception? =
      (DumpParser.startParser lib Streamed.store { stored := 1 }
        (callbacks document.events call.orders)).exception? := by
  obtain ⟨hexception, -, -, -⟩ :=
    StreamingDumpParser.parseNew_mirrors lib (call.events inputs) call.orders call.orders
  rw [← hon]
  exact hexception.symm

/-- What a document is read as has been written. -/
theorem ExtractCall.On.written {call : ExtractCall} {document : DocumentTree}
    (hon : call.On inputs document) {streamed : Streamed}
    (hread : document.read lib Streamed.store 1 = .ok streamed) :
    call.pages lib inputs = streamed.pages ∧
      call.revisions lib inputs = streamed.revisions := by
  obtain ⟨-, -, hmirrors, -⟩ :=
    StreamingDumpParser.parseNew_mirrors lib (call.events inputs) call.orders call.orders
  have hpages : call.pages lib inputs = (StreamingDumpParser.parseNew lib (call.events inputs)
      call.orders).state.stored.pages := hmirrors.pages.symm
  rcases DumpParser.startParser_read lib Streamed.store { stored := 1 } document call.orders with
    ⟨stored, hstored, -, hstate⟩ | ⟨exception, hthrown, -⟩
  · rw [hread, Except.ok.injEq] at hstored
    rw [← hon, ← hstored] at hstate
    exact ⟨hpages.trans (congrArg Streamed.pages hstate), congrArg Streamed.revisions hstate⟩
  · rw [hread] at hthrown
    cases hthrown

theorem ExtractCall.On.reads {call : ExtractCall} {document : DocumentTree}
    (hon : call.On inputs document) {result : List Page × StdMap UInt64 Revision}
    (hextract : call.extract lib inputs = .ok result) :
    ∃ streamed, document.read lib Streamed.store 1 = .ok streamed := by
  rcases DumpParser.startParser_read lib Streamed.store { stored := 1 } document call.orders with
    ⟨streamed, hread, -⟩ | ⟨exception, -, hthrown⟩
  · exact ⟨streamed, hread⟩
  · rw [call.extract_eq, hon.exception?_eq, hthrown] at hextract
    cases hextract

theorem flatMap_eq_of_forall₂ {α β γ : Type} {f : α → List γ} {g : β → List γ} {items : List α}
    {items' : List β} (hitems : List.Forall₂ (fun item item' => f item = g item') items items') :
    items.flatMap f = items'.flatMap g := by
  induction hitems with
  | nil => rfl
  | cons hitem _ ih => rw [List.flatMap_cons, List.flatMap_cons, hitem, ih]

variable {Stream : Type} {pbf : PbfLibrary Stream}

/-- A dump that is cut between pages into several streams is extracted like the dump
in one stream: what is returned, or what is thrown first, is put together from the
parts, and the files are the same, byte for byte. -/
theorem extract_split {whole : ExtractCall} {document : DocumentTree}
    {parts : List (ExtractCall × DocumentTree)} (hwhole : whole.On inputs document)
    (hparts : ∀ part ∈ parts, part.1.On inputs part.2)
    (hcut : document.children = parts.flatMap fun part => part.2.children) :
    whole.extract lib inputs =
        ((parts.map Prod.fst).mapM (ExtractCall.extract lib inputs)).map (fun found =>
          (found.flatMap Prod.fst, (found.map Prod.snd).foldr
            (fun first rest => MapEntries.insertAll first rest.toList) ∅)) ∧
      ∀ result outputs, whole.extract lib inputs = .ok result →
        ((extractAllTo pbf lib inputs [whole]).run outputs).2 =
          ((extractAllTo pbf lib inputs (parts.map Prod.fst)).run outputs).2 := by
  have hcut' : document.children =
      (parts.map Prod.snd).flatMap DocumentTree.children := by
    rw [hcut, List.flatMap_map]
  have hextracts : (parts.map Prod.fst).mapM (ExtractCall.extract lib inputs) =
      ((parts.map Prod.snd).mapM fun part : DocumentTree =>
        part.read lib InMemory.store 1).map
          (List.map fun stored => (stored.pages, stored.revisions)) := by
    rw [← mapM_map, List.mapM_map, List.mapM_map]
    exact mapM_congr fun part hpart => (hparts part hpart).extract
  constructor
  · rw [hwhole.extract, DocumentTree.read_parts lib InMemory.store_appends hcut', hextracts,
      map_map, map_map]
    congr 1
    funext found
    simp [InMemory.prod_eq, List.flatMap_map, Function.comp_def]
  · intro result outputs hresult
    obtain ⟨streamed, hread⟩ := hwhole.reads hresult
    obtain ⟨hpages, hrevisions⟩ := hwhole.written hread
    rw [DocumentTree.read_parts lib Streamed.store_appends hcut'] at hread
    obtain ⟨found, hfound, rfl⟩ := map_ok hread
    have hreads := mapM_ok hfound
    rw [List.forall₂_map_left_iff] at hreads
    have hwritten : List.Forall₂ (fun part streamed =>
        part.1.pages lib inputs = streamed.pages ∧
          part.1.revisions lib inputs = streamed.revisions) parts found := by
      have hmem := (List.forall₂_and_left parts found).mpr ⟨hparts, hreads⟩
      exact hmem.imp fun part streamed hpart => hpart.1.written hpart.2
    have hsamePages : pagesOf lib inputs [whole] = pagesOf lib inputs (parts.map Prod.fst) := by
      rw [pagesOf, pagesOf, List.flatMap_singleton, List.flatMap_map, hpages,
        Streamed.pages_prod]
      exact (flatMap_eq_of_forall₂ (hwritten.imp fun _ _ hpart => hpart.1)).symm
    have hsameRevisions :
        revisionsOf lib inputs [whole] = revisionsOf lib inputs (parts.map Prod.fst) := by
      rw [revisionsOf, revisionsOf, List.flatMap_singleton, List.flatMap_map, hrevisions,
        Streamed.revisions_prod]
      exact (flatMap_eq_of_forall₂ (hwritten.imp fun _ _ hpart => hpart.2)).symm
    rw [run_extractAllTo, run_extractAllTo, hsamePages, hsameRevisions]

end Calls

section Sample

/-- A second page, which cites something else. -/
def otherPage : PageTree := samplePage "Q" "8" "6" "{{b|title=U}}"

def otherBytes : List UInt8 :=
  sampleBytes [samplePageText "Q" "8" "6" "{{b|title=U}}"]

def bothBytes : List UInt8 :=
  sampleBytes [samplePageText "P" "7" "5" "{{a|title=T}}",
    samplePageText "Q" "8" "6" "{{b|title=U}}"]

/-- What is made of the documents with one page, and of the one with both. -/
def splitInputs : InputLibrary where
  callbacks bytes :=
    if bytes = bothBytes then (sampleDocument [citingPage, otherPage]).events
    else if bytes = otherBytes then (sampleDocument [otherPage]).events
    else sampleInputs.callbacks bytes
  decompress := sampleInputs.decompress

/-- The pages in one stream, and one by one, the first compressed. -/
def wholeCall : ExtractCall := ⟨.text, bothBytes, fun _ _ => .ascending⟩

def partCalls : List (ExtractCall × DocumentTree) :=
  [(⟨.bz2, citingBz2, fun _ _ => .ascending⟩, sampleDocument [citingPage]),
    (⟨.text, otherBytes, fun _ _ => .ascending⟩, sampleDocument [otherPage])]

theorem extract_split_sample :
    wholeCall.extract sampleLibrary splitInputs =
        ((partCalls.map Prod.fst).mapM (ExtractCall.extract sampleLibrary splitInputs)).map
          (fun found => (found.flatMap Prod.fst, (found.map Prod.snd).foldr
            (fun first rest => MapEntries.insertAll first rest.toList) ∅)) ∧
      ∀ result outputs, wholeCall.extract sampleLibrary splitInputs = .ok result →
        ((extractAllTo samplePbf sampleLibrary splitInputs [wholeCall]).run outputs).2 =
          ((extractAllTo samplePbf sampleLibrary splitInputs
            (partCalls.map Prod.fst)).run outputs).2 := by
  have hwhole : wholeCall.On splitInputs (sampleDocument [citingPage, otherPage]) := by
    unfold ExtractCall.On
    decide +kernel
  exact extract_split hwhole (by unfold ExtractCall.On; decide +kernel) rfl

end Sample

end Citescoop
