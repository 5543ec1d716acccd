/-
`SnapshotProcessor`: both overloads of `ProcessWorksSnapshot`, and sequences of
calls on one processor with what the callers receive from them.
-/
import Citescoop.SnapshotExtract

namespace Citescoop

open MonadExcept (ofExcept)

/-- The three calls in the argument list of the tuple that `ProcessLine`
returns. -/
inductive Extractor where
  | authors
  | institutions
  | work
deriving Repr, DecidableEq

/-- The order in which the compiler evaluates them. -/
structure EvaluationOrder where
  extractors : List Extractor
  perm : extractors.Perm [.authors, .institutions, .work]

/-- `json::parse`, which throws where there is no value, `TimeUtil::FromString`
and the compiler. -/
structure SnapshotLibrary where
  parse : Text → Option Json
  timeFromString : Text → Option Timestamp
  order : EvaluationOrder

/-- The tuple that `ProcessLine` returns. -/
structure Extracted where
  authors : List Author := []
  institutions : List Institution := []
  work : Work := { openalexId := [] }

structure Batch where
  authors : List Author := []
  institutions : List Institution := []
  works : List Work := []
deriving Repr, DecidableEq

structure Counts where
  authors : UInt64 := 0
  institutions : UInt64 := 0
  works : UInt64 := 0
deriving Repr, DecidableEq

/-- A message about an author or an institution. -/
inductive Entity where
  | author (message : Author)
  | institution (message : Institution)
deriving Repr, DecidableEq

def Entity.openalexId : Entity → Text
  | author message => message.openalexId
  | institution message => message.openalexId

def Entity.author? : Entity → Option Author
  | author message => some message
  | institution _ => none

def Entity.institution? : Entity → Option Institution
  | author _ => none
  | institution message => some message

/-- The call that an entity comes from. -/
def Entity.extractor : Entity → Extractor
  | author _ => .authors
  | institution _ => .institutions

/-- A message that a caller receives, as a return value or in a stream. -/
inductive Emission where
  | entity (message : Entity)
  | work (message : Work)
deriving Repr, DecidableEq

def Emission.entity? : Emission → Option Entity
  | entity message => some message
  | work _ => none

def Emission.work? : Emission → Option Work
  | entity _ => none
  | work message => some message

attribute [simp] Entity.author? Entity.institution? Emission.entity? Emission.work?

@[simp] theorem Entity.author?_comp_author :
    Entity.author? ∘ Entity.author = some := rfl

@[simp] theorem Entity.institution?_comp_institution :
    Entity.institution? ∘ Entity.institution = some := rfl

@[simp] theorem Emission.entity?_comp_entity :
    Emission.entity? ∘ Emission.entity = some := rfl

@[simp] theorem Emission.work?_comp_work :
    Emission.work? ∘ Emission.work = some := rfl

/-- The order within the log is that of the elements of the tuple. -/
def Batch.emissions (batch : Batch) : List Emission :=
  batch.authors.map (.entity ∘ .author) ++
    batch.institutions.map (.entity ∘ .institution) ++ batch.works.map .work

def entitiesIn (log : List Emission) : List Entity :=
  log.filterMap Emission.entity?

def authorsIn (log : List Emission) : List Author :=
  (entitiesIn log).filterMap Entity.author?

def institutionsIn (log : List Emission) : List Institution :=
  (entitiesIn log).filterMap Entity.institution?

def worksIn (log : List Emission) : List Work :=
  log.filterMap Emission.work?

/-- A processor, and everything that its callers have received. -/
structure Session where
  seenIds : SeenIds := ∅
  received : List Emission := []

abbrev Caller := EStateM SnapshotException Session

def onProcessor {α : Type} (action : Processor α) : Caller α := fun session =>
  match action.run session.seenIds with
  | .ok value seenIds => .ok value { session with seenIds }
  | .error exception seenIds => .error exception { session with seenIds }

def receive (emissions : List Emission) : Caller Unit :=
  modify fun session => { session with received := session.received ++ emissions }

/-- The lines that `std::getline` reads one after the other. -/
def getLines : Text → List Text
  | [] => []
  | c :: rest =>
      if c = '\n' then [] :: getLines rest
      else
        match getLines rest with
        | [] => [[c]]
        | line :: lines => (c :: line) :: lines

section Process

variable (lib : SnapshotLibrary)

def parseLine (line : Text) : Except SnapshotException Json :=
  match lib.parse line with
  | some data => .ok data
  | none => .error (.json .parseError)

def extract (data : Json) (extracted : Extracted) : Extractor → Processor Extracted
  | .authors => do
      let authors ← extractAuthors data
      return { extracted with authors }
  | .institutions => do
      let institutions ← extractInstitutions data
      return { extracted with institutions }
  | .work => do
      let work ← ofExcept (extractWork lib.timeFromString data)
      return { extracted with work }

def processLine (line : Text) : Processor Extracted := do
  let data ← ofExcept (parseLine lib line)
  lib.order.extractors.foldlM (extract lib data) {}

/-- One round of the loop of the overload that returns its results. -/
def collectLine (batch : Batch) (line : Text) : Processor Batch :=
  if line.isEmpty then return batch
  else do
    let extracted ← processLine lib line
    return {
      authors := batch.authors ++ extracted.authors
      institutions := batch.institutions ++ extracted.institutions
      works := batch.works ++ [extracted.work] }

def collectLines (lines : List Text) : Processor Batch :=
  lines.foldlM (collectLine lib) {}

def processWorksSnapshot (input : Text) : Processor Batch :=
  collectLines lib (getLines input)

/-- `WriteMessage` on one of the three writers, which cannot fail. -/
def writeMessage (message : Emission) : Caller Unit :=
  receive [message]

def writeAuthor (counts : Counts) (author : Author) : Caller Counts := do
  writeMessage (.entity (.author author))
  return { counts with authors := counts.authors + 1 }

def writeInstitution (counts : Counts) (institution : Institution) : Caller Counts := do
  writeMessage (.entity (.institution institution))
  return { counts with institutions := counts.institutions + 1 }

def writeWork (counts : Counts) (work : Work) : Caller Counts := do
  writeMessage (.work work)
  return { counts with works := counts.works + 1 }

/-- One round of the loop of the overload that writes its results to streams. -/
def streamLine (counts : Counts) (line : Text) : Caller Counts :=
  if line.isEmpty then return counts
  else do
    let extracted ← onProcessor (processLine lib line)
    let counts ← extracted.authors.foldlM writeAuthor counts
    let counts ← extracted.institutions.foldlM writeInstitution counts
    writeWork counts extracted.work

def streamLines (lines : List Text) : Caller Counts :=
  lines.foldlM (streamLine lib) {}

def processWorksSnapshotStreaming (input : Text) : Caller Counts :=
  streamLines lib (getLines input)

inductive Overload where
  | inMemory
  | streaming
deriving Repr, DecidableEq

structure Call where
  overload : Overload
  input : Text
deriving Repr, DecidableEq

inductive Returned where
  | batch (batch : Batch)
  | counts (counts : Counts)
deriving Repr, DecidableEq

/-- A call whose result the caller keeps. -/
def perform (call : Call) : Caller Returned :=
  match call.overload with
  | .inMemory => do
      let batch ← onProcessor (processWorksSnapshot lib call.input)
      receive batch.emissions
      return .batch batch
  | .streaming => do
      let counts ← processWorksSnapshotStreaming lib call.input
      return .counts counts

/-- Calls one after the other, until one throws. -/
def performAll : List Call → Caller (List Returned)
  | [] => return []
  | call :: calls => do
      let returned ← perform lib call
      let rest ← performAll calls
      return returned :: rest

/-- A session after a call that may have thrown. -/
def Session.step (session : Session) (call : Call) : Session :=
  match (perform lib call).run session with
  | .ok _ next => next
  | .error _ next => next

/-- A session after calls that may have thrown. -/
def Session.after (session : Session) (calls : List Call) : Session :=
  calls.foldl (Session.step lib) session

end Process

section Samples

/-- A record with the fields that `ExtractWork` insists on. -/
def minimalRecord (authorships : List Json) : Json :=
  .object [("authorships".toList, .array authorships), ("id".toList, .string "W1".toList),
    ("ids".toList, .object []),
    ("open_access".toList, .object [("oa_status".toList, .string "gold".toList),
      ("oa_url".toList, .null)])]

/-- The text of that record, around the text of its authorships. -/
def minimalLine (authorships : String) : Text :=
  ("\x7b\"authorships\":[" ++ authorships ++ "],\"id\":\"W1\",\"ids\":\x7b\x7d," ++
    "\"open_access\":\x7b\"oa_status\":\"gold\",\"oa_url\":null\x7d\x7d").toList

/-- A library that knows the values of some texts, which hold no date. -/
def tableLibrary (table : List (Text × Json)) : SnapshotLibrary where
  parse line := (table.find? fun entry => entry.1 = line).map Prod.snd
  timeFromString _ := none
  order := ⟨[.authors, .institutions, .work], .refl _⟩

end Samples

section Lines

theorem getLines_cons_newline (rest : Text) :
    getLines ('\n' :: rest) = [] :: getLines rest := by
  simp [getLines]

/-- A line and its end in front of the rest of a stream. -/
theorem getLines_append_newline {line : Text} (hline : '\n' ∉ line) (rest : Text) :
    getLines (line ++ '\n' :: rest) = line :: getLines rest := by
  induction line with
  | nil => exact getLines_cons_newline rest
  | cons c line ih =>
      have hc : c ≠ '\n' := fun heq => hline (heq ▸ List.mem_cons_self)
      have hrest := ih fun hmem => hline (List.mem_cons_of_mem c hmem)
      rw [List.cons_append, getLines, if_neg hc, hrest]

/-- A last line need not have an end. -/
theorem getLines_of_notMem {line : Text} (hne : line ≠ []) (hline : '\n' ∉ line) :
    getLines line = [line] := by
  induction line with
  | nil => exact absurd rfl hne
  | cons c line ih =>
      have hc : c ≠ '\n' := fun heq => hline (heq ▸ List.mem_cons_self)
      have hrest : '\n' ∉ line := fun hmem => hline (List.mem_cons_of_mem c hmem)
      rcases line with _ | ⟨c', line⟩
      · simp [getLines, hc]
      · rw [getLines, if_neg hc, ih (List.cons_ne_nil c' line) hrest]

theorem newline_notMem_getLines {input line : Text} (hline : line ∈ getLines input) :
    '\n' ∉ line := by
  induction input generalizing line with
  | nil => simp [getLines] at hline
  | cons c rest ih =>
      rw [getLines] at hline
      by_cases hc : c = '\n'
      · rw [if_pos hc, List.mem_cons] at hline
        rcases hline with rfl | hline
        · exact List.not_mem_nil
        · exact ih hline
      · rw [if_neg hc] at hline
        cases hrest : getLines rest with
        | nil =>
            rw [hrest, List.mem_singleton] at hline
            simpa [hline] using Ne.symm hc
        | cons first lines =>
            rw [hrest] at hline ih
            rcases List.mem_cons.mp hline with rfl | hline
            · rw [List.mem_cons, not_or]
              exact ⟨Ne.symm hc, ih List.mem_cons_self⟩
            · exact ih (List.mem_cons_of_mem first hline)

/-- The stream with the given lines. -/
def unlines (lines : List Text) : Text :=
  lines.flatMap fun line => line ++ ['\n']

theorem getLines_unlines {lines : List Text} (hlines : ∀ line ∈ lines, '\n' ∉ line) :
    getLines (unlines lines) = lines := by
  induction lines with
  | nil => rfl
  | cons line lines ih =>
      rw [List.forall_mem_cons] at hlines
      have hstream : unlines (line :: lines) = line ++ '\n' :: unlines lines := by
        simp [unlines]
      rw [hstream, getLines_append_newline hlines.1, ih hlines.2]

end Lines

end Citescoop
