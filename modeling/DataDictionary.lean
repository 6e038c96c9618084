import DataDictionary.Field.Validation
import DataDictionary.Outcome
import DataDictionary.Json.Schema
import DataDictionary.Json.Report
import DataDictionary.Bindings.Source
import DataDictionary.Store.Request
import DataDictionary.Store.Folder
import DataDictionary.Proofs.Segmentation
import DataDictionary.Proofs.SchemaRules
import DataDictionary.Proofs.OpenSources
import DataDictionary.Proofs.GroupBoundary
import DataDictionary.Proofs.JsonRoundTrip
import DataDictionary.Proofs.Layout
import DataDictionary.Proofs.UnknownDirectives
import DataDictionary.Proofs.Groups
import DataDictionary.Proofs.Rounding
import DataDictionary.Proofs.JsonNumbers
import DataDictionary.Proofs.Exports
import DataDictionary.Proofs.ShelfHistory
import DataDictionary.Proofs.Locations
import DataDictionary.Proofs.Enumerations
import DataDictionary.Proofs.ValidIdentifiers
import DataDictionary.Proofs.RepeatingGroups
import DataDictionary.Proofs.FieldBounds
import DataDictionary.Proofs.FieldReadings
import DataDictionary.Proofs.KindDirectives
import DataDictionary.Proofs.SentinelWords
import DataDictionary.Proofs.Precedence
import DataDictionary.Proofs.FieldKeys
import DataDictionary.Proofs.IntegerValues
import DataDictionary.Proofs.RejectedNumbers
import DataDictionary.Proofs.CommentLines
import DataDictionary.Proofs.Documentation
import DataDictionary.Proofs.FieldNumbers
import DataDictionary.Proofs.ErrorOrder
import DataDictionary.Proofs.FieldIds
import DataDictionary.Proofs.LookupKeys
import DataDictionary.Proofs.SatisfiableBounds
import DataDictionary.Proofs.NotedPlaces
