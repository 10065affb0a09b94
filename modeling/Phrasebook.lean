import Phrasebook.AccessorModule
import Phrasebook.CatalogFile
import Phrasebook.CatalogJson
import Phrasebook.CommandLine
import Phrasebook.FileTree
import Phrasebook.Generation
import Phrasebook.Main
import Phrasebook.Proofs.Declarations
import Phrasebook.Proofs.Namespaces
import Phrasebook.Proofs.PlaceholderScan
import Phrasebook.Proofs.Identifiers
import Phrasebook.Proofs.Violations
import Phrasebook.Proofs.Acceptance
import Phrasebook.Proofs.Resolution
import Phrasebook.Proofs.Expansion
import Phrasebook.Proofs.Artifacts
import Phrasebook.Proofs.Faithfulness
import Phrasebook.Proofs.CheckOrder
import Phrasebook.Proofs.Grouping
import Phrasebook.Proofs.ResourceKeys
import Phrasebook.Proofs.CallSites
import Phrasebook.Proofs.FileTrees
import Phrasebook.Proofs.ListPieces
import Phrasebook.Proofs.TablePaths
import Phrasebook.Proofs.StoreRuns
import Phrasebook.Proofs.CommandRuns
import Phrasebook.Proofs.OutputFiles
import Phrasebook.Proofs.Comparison
import Phrasebook.Proofs.OutputPaths
import Phrasebook.Proofs.ParentPaths
import Phrasebook.Proofs.Overwriting
import Phrasebook.Proofs.CatalogPaths
import Phrasebook.Proofs.UpToDateRuns
import Phrasebook.Proofs.RepeatedRuns
import Phrasebook.Proofs.Footprint
import Phrasebook.Proofs.Independence
import Phrasebook.Proofs.Rearrangement
import Phrasebook.Proofs.WrittenJson
import Phrasebook.Proofs.CatalogRoundTrip
import Phrasebook.Proofs.FilledTemplates
import Phrasebook.Proofs.ComposedTemplates
import Phrasebook.Proofs.CodeCharacters
import Phrasebook.Proofs.DeclaredNames
import Phrasebook.Proofs.ValueDirectives
import Phrasebook.Proofs.QuotedBodies
import Phrasebook.Proofs.TableReading
import Phrasebook.Proofs.LineBreaks
import Phrasebook.Proofs.ModuleLines
import Phrasebook.Proofs.Nesting
import Phrasebook.Proofs.WrittenTexts
import Phrasebook.Proofs.CommandAgreement
import Phrasebook.Proofs.KeyLists
import Phrasebook.Proofs.EncodedTexts
import Phrasebook.Proofs.LanguageLookups
import Phrasebook.Proofs.LineScan
import Phrasebook.Proofs.StringLiterals
