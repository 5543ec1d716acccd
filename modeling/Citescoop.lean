import Citescoop.DocumentRead
import Citescoop.RevisionScope
import Citescoop.TimestampTies
import Citescoop.Parameterless
import Citescoop.Rendering
import Citescoop.Truncation
import Citescoop.Streaming
import Citescoop.FailedCalls
import Citescoop.ReferentialIntegrity
import Citescoop.ReferenceGuards
import Citescoop.PublicationDate
import Citescoop.IncompleteRead
import Citescoop.IdentifierPaths
import Citescoop.ParameterOrder
import Citescoop.ParseFailures
import Citescoop.BlankLines
import Citescoop.TemplateNames
import Citescoop.RecordedFields
import Citescoop.ExtractFiles
import Citescoop.SnapshotFiles
import Citescoop.DumpSplitting
import Citescoop.PageHistory
import Citescoop.SnapshotParts
import Citescoop.AcceptedRecords
import Citescoop.FailedParses
import Citescoop.NullEdits
import Citescoop.WikitextParts
import Citescoop.LenientRuns
import Citescoop.StreamedBlocks
import Citescoop.GrowingHistory
