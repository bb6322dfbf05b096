import Listing.Filter.Document
import Listing.Http
import Listing.Proofs.Answer
import Listing.Proofs.BaseFilter
import Listing.Proofs.Compilation
import Listing.Proofs.Meaning
import Listing.Proofs.PageRequest
import Listing.Proofs.SortOrder
import Listing.Proofs.Tiling
import Listing.Proofs.AcceptedDocuments
import Listing.Proofs.ReadValues
import Listing.Proofs.OverrideMeaning
import Listing.Proofs.FieldNames
import Listing.Proofs.PageContent
import Listing.Proofs.Categories
import Listing.Proofs.FilterGrammar
import Listing.Proofs.RenderedDocuments
import Listing.Proofs.Refusals
import Listing.Proofs.StoreRuns
import Listing.Proofs.LastValues
import Listing.Proofs.SharedStore
import Listing.Proofs.AddedClauses
import Listing.Proofs.Partition
import Listing.Proofs.CompactText
import Listing.Proofs.SurfaceForms
import Listing.Proofs.Traces
import Listing.Proofs.ArrayFree
import Listing.Proofs.Presentation
import Listing.Proofs.SortDocument
import Listing.Proofs.ProjectedParts
import Listing.Proofs.RepeatedExpansions
import Listing.Proofs.Candidates
import Listing.Proofs.ElementLists
import Listing.Proofs.Ranges
import Listing.Proofs.NearestDoubles
import Listing.Proofs.IntegerConditions
import Listing.Proofs.SearchedText
import Listing.Proofs.PageArithmetic
import Listing.Proofs.UnusableValues
import Listing.Proofs.BlankSearch
import Listing.Proofs.AlikeStores
import Listing.Proofs.SortText
import Listing.Proofs.FieldLists
import Listing.Proofs.LiteralPatterns
