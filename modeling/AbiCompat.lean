import AbiCompat.Interface.Basic
import AbiCompat.Json.Parse
import AbiCompat.Json.Read
import AbiCompat.Json.Write
import AbiCompat.Dump.Row
import AbiCompat.Dump.Document
import AbiCompat.Compare.Outcome
import AbiCompat.Report.Document
import AbiCompat.Config.Basic
import AbiCompat.Files.Tree
import AbiCompat.IgnoreList
import AbiCompat.Sha256
import AbiCompat.Files.Documents
import AbiCompat.Main
import AbiCompat.Proofs.Categories
import AbiCompat.Proofs.Evolution.Interfaces
import AbiCompat.Proofs.Gate
import AbiCompat.Proofs.Hidden
import AbiCompat.Proofs.Identity
import AbiCompat.Proofs.Justified
import AbiCompat.Proofs.Leniency
import AbiCompat.Proofs.Locality
import AbiCompat.Proofs.Order
import AbiCompat.Proofs.Paths
import AbiCompat.Proofs.Walk.Lockstep
import AbiCompat.Proofs.Walk.Ending
import AbiCompat.Proofs.Json.Literals
import AbiCompat.Proofs.Json.RoundTrip
import AbiCompat.Proofs.Dump
import AbiCompat.Proofs.Renaming.Declarations
import AbiCompat.Proofs.Renaming.Looks
import AbiCompat.Proofs.Renaming.Walks
import AbiCompat.Proofs.Renaming.Interfaces
import AbiCompat.Proofs.AllTypes
import AbiCompat.Proofs.Listings
import AbiCompat.Proofs.Ignored
import AbiCompat.Proofs.OutOfReach
import AbiCompat.Proofs.Population
import AbiCompat.Proofs.Variants
import AbiCompat.Proofs.Walk.Visits
import AbiCompat.Proofs.Json.Inversion
import AbiCompat.Proofs.Json.Grammar
import AbiCompat.Proofs.Json.Accepted
import AbiCompat.Proofs.Json.Normal
import AbiCompat.Proofs.NormalForm
import AbiCompat.Proofs.Report.RoundTrip
import AbiCompat.Proofs.Report.Entries
import AbiCompat.Proofs.Distinct
import AbiCompat.Proofs.Evolution.FieldNames
import AbiCompat.Proofs.Enumerations
import AbiCompat.Proofs.Nested
import AbiCompat.Proofs.Masked
import AbiCompat.Proofs.Evolution.Additions
import AbiCompat.Proofs.VirtualTables
import AbiCompat.Proofs.Unresolved
import AbiCompat.Proofs.Filling
import AbiCompat.Proofs.Files.Tree
import AbiCompat.Proofs.Files.Comparison
import AbiCompat.Proofs.IgnoreLists
import AbiCompat.Proofs.Walk.Frame
import AbiCompat.Proofs.Report.Contents
