import ShaderCatalog.Main
import ShaderCatalog.Proofs.Catalog.FirstFailure
import ShaderCatalog.Proofs.Catalog.Histories
import ShaderCatalog.Proofs.Catalog.Merging
import ShaderCatalog.Proofs.Command.Generation
import ShaderCatalog.Proofs.Command.WatchedFiles
import ShaderCatalog.Proofs.Files.AtomicWrites
import ShaderCatalog.Proofs.Source.CharacterScan
import ShaderCatalog.Proofs.Source.MarkerLines
import ShaderCatalog.Proofs.Source.Quotes
import ShaderCatalog.Proofs.Source.Rescan
import ShaderCatalog.Proofs.Source.CommentErasure
import ShaderCatalog.Proofs.Source.Signatures
import ShaderCatalog.Proofs.Source.TokenPlaces
import ShaderCatalog.Proofs.Catalog.NearestGroup
import ShaderCatalog.Proofs.Source.LineEndings
import ShaderCatalog.Proofs.Source.CanonicalLines
import ShaderCatalog.Proofs.Source.KeptLiterals
import ShaderCatalog.Proofs.Source.Deletions
import ShaderCatalog.Proofs.Source.PrecedingMarker
import ShaderCatalog.Proofs.Catalog.PrependedMarker
import ShaderCatalog.Proofs.Source.CutLines
import ShaderCatalog.Proofs.Swift.PrintedLayout
import ShaderCatalog.Proofs.Files.Closed
import ShaderCatalog.Proofs.Files.UnseenChanges
import ShaderCatalog.Proofs.Command.FixedPoint
import ShaderCatalog.Proofs.Text.Utf8
import ShaderCatalog.Proofs.Files.RoundTrip
import ShaderCatalog.Proofs.Files.FoundFiles
import ShaderCatalog.Proofs.Files.ReadPolicies
import ShaderCatalog.Proofs.Swift.BlockTrees
