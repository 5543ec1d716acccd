/-
`Parser::ParserImpl`: from the templates that the grammar finds in a text to
the citations of that text, keyed by title.
-/
import Citescoop.Grammar
import Citescoop.Messages

namespace Citescoop

/-- An identifier that cannot be converted is reported with the `what()` of
the standard exception, whose wording is left open; here it is the exception. -/
inductive TemplateParseException where
  | failedToParseIdent (cause : ConversionError)
  | failedToParseWikiText
deriving Repr, DecidableEq

structure ParserOptions where
  ignoreInvalidIdent : Bool := false
deriving Repr, DecidableEq

structure ParserImpl where
  filter : Text → Bool
  options : ParserOptions := {}

/-- The parameters that are recorded. -/
inductive ParamKey where
  | title
  | doi
  | isbn
  | pmid
  | pmc
  | issn
  | url
  | archiveUrl
deriving Repr, DecidableEq

def ParamKey.text : ParamKey → Text
  | title => "title".toList
  | doi => "doi".toList
  | isbn => "isbn".toList
  | pmid => "pmid".toList
  | pmc => "pmc".toList
  | issn => "issn".toList
  | url => "url".toList
  | archiveUrl => "archive-url".toList

@[simp] theorem ParamKey.text_inj (left right : ParamKey) :
    left.text = right.text ↔ left = right := by
  cases left <;> cases right <;> decide

def parseDoi (doi : Text) : Text :=
  if "https://doi.org/".toList.isPrefixOf doi then
    eraseFirstCopy "https://doi.org/".toList doi
  else doi

def strToIntIdent (ident : Text) : Except TemplateParseException Int :=
  (stoi ident).mapError .failedToParseIdent

def parsePmcId (pmcid : Text) : Except TemplateParseException Int :=
  if "PMC".toList.isPrefixOf pmcid then
    strToIntIdent (eraseFirstCopy "PMC".toList pmcid)
  else strToIntIdent pmcid

/-- The two numeric identifiers.  `mutable_identifiers()` is evaluated before
the argument of the setter, so the sub-message exists even when the
conversion throws.  The flag answers whether an update was made. -/
def handleNumericKey (options : ParserOptions)
    (convert : Text → Except TemplateParseException Int)
    (set : UInt32 → Identifiers → Identifiers)
    (citation : ExtractedCitation) (value : Text) :
    Except TemplateParseException (Bool × ExtractedCitation) :=
  match convert (trimCopy value) with
  | .ok number => .ok (true, citation.updateIdentifiers (set (.ofInt number)))
  | .error exception =>
      if options.ignoreInvalidIdent then
        .ok (false, citation.updateIdentifiers id)
      else .error exception

def handlePmcIdKey (options : ParserOptions) :=
  handleNumericKey options parsePmcId
    fun number identifiers => { identifiers with pmcid? := some number }

def handlePmIdKey (options : ParserOptions) :=
  handleNumericKey options strToIntIdent
    fun number identifiers => { identifiers with pmid? := some number }

def checkForIdentKey (options : ParserOptions) (citation : ExtractedCitation)
    (key value : Text) :
    Except TemplateParseException (Bool × ExtractedCitation) :=
  if key = ParamKey.doi.text then
    .ok (true, citation.updateIdentifiers
      fun identifiers => { identifiers with doi? := some (parseDoi (trimCopy value)) })
  else if key = ParamKey.isbn.text then
    .ok (true, citation.updateIdentifiers
      fun identifiers => { identifiers with isbn? := some (trimCopy value) })
  else if key = ParamKey.pmid.text then
    (handlePmIdKey options citation value).map fun (_, citation) => (true, citation)
  else if key = ParamKey.pmc.text then
    (handlePmcIdKey options citation value).map fun (_, citation) => (true, citation)
  else if key = ParamKey.issn.text then
    .ok (true, citation.updateIdentifiers
      fun identifiers => { identifiers with issn? := some (trimCopy value) })
  else .ok (false, citation)

def checkForUrlKey (citation : ExtractedCitation) (key value : Text) :
    Bool × ExtractedCitation :=
  if key = ParamKey.url.text then
    (true, { citation with urls := citation.urls ++ [⟨.default, trimCopy value⟩] })
  else if key = ParamKey.archiveUrl.text then
    (true, { citation with urls := citation.urls ++ [⟨.archive, trimCopy value⟩] })
  else (false, citation)

/-- The key that decides which field a parameter writes. -/
def ParameterEntry.normalisedKey (param : ParameterEntry) : Text :=
  toLower (trimCopy param.key)

/-- The loop body of `BuildCitation`. -/
def buildParam (options : ParserOptions) (citation : ExtractedCitation)
    (param : ParameterEntry) : Except TemplateParseException ExtractedCitation :=
  match param.value with
  | none => .ok citation
  | some value =>
      if param.normalisedKey = ParamKey.title.text then
        .ok { citation with title? := some (trimCopy value) }
      else
        (checkForIdentKey options citation param.normalisedKey value).map
          fun (found, citation) =>
            if found then citation
            else (checkForUrlKey citation param.normalisedKey value).2

def buildCitation (options : ParserOptions) (entry : TemplateEntry) :
    Except TemplateParseException ExtractedCitation :=
  entry.params.foldlM (buildParam options) {}

/-- The trimmed lower-case name, which the filter is asked about. -/
def TemplateEntry.normalisedName (entry : TemplateEntry) : Text :=
  toLower (trimCopy entry.name)

namespace ParserImpl

variable (impl : ParserImpl)

def accepts (entry : TemplateEntry) : Bool :=
  impl.filter entry.normalisedName

/-- The loop body of `Parse`.  Inserting into the map keeps an entry that is
already there. -/
def addResult (citations : RevisionCitations) (result : TemplateEntry) :
    Except TemplateParseException RevisionCitations :=
  if impl.accepts result then
    (buildCitation impl.options result).map fun citation =>
      { citations with
        citations := citations.citations.insertIfNew citation.title citation }
  else .ok citations

def parse (text : Text) : Except TemplateParseException RevisionCitations :=
  match prefixParse wikitextRule text with
  | some (results, _) => results.foldlM impl.addResult {}
  | none => .error .failedToParseWikiText

end ParserImpl

end Citescoop
