import OrmGen.Main
import OrmGen.Proofs.Diagram.RelationLines
import OrmGen.Proofs.Disk.Aftermath
import OrmGen.Proofs.Disk.Backslashes
import OrmGen.Proofs.Disk.DistinctPaths
import OrmGen.Proofs.Disk.Scaffolds
import OrmGen.Proofs.Disk.SourceTree
import OrmGen.Proofs.DryRun
import OrmGen.Proofs.Mapping.BoundNames
import OrmGen.Proofs.Mapping.Buildable
import OrmGen.Proofs.Mapping.ColumnKeys
import OrmGen.Proofs.Mapping.Counts
import OrmGen.Proofs.Mapping.DocComments
import OrmGen.Proofs.Mapping.Ends
import OrmGen.Proofs.Mapping.Integers
import OrmGen.Proofs.Mapping.OpenQuotes
import OrmGen.Proofs.Mapping.Quotes
import OrmGen.Proofs.Mapping.References
import OrmGen.Proofs.Mapping.Reordering
import OrmGen.Proofs.Mapping.Repetition
import OrmGen.Proofs.Mapping.StringDefaults
import OrmGen.Proofs.Php.CloserRemoval
import OrmGen.Proofs.Php.ImportHistory
import OrmGen.Proofs.Php.ImportStatements
import OrmGen.Proofs.Php.NameResolution
import OrmGen.Proofs.Php.ReadBack
import OrmGen.Proofs.Php.UnionTypes
import OrmGen.Proofs.Schema.Kept
import OrmGen.Proofs.Schema.Linkable
import OrmGen.Proofs.Schema.Separators
import OrmGen.Proofs.Schema.StoredForm
import OrmGen.Schema.Stored
