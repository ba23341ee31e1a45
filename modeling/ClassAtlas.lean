import ClassAtlas.Cache.Sharing
import ClassAtlas.Main
import ClassAtlas.Proofs.Interpolation.Substitution
import ClassAtlas.Proofs.Interpolation.Bounds
import ClassAtlas.Proofs.Descriptor.Resolution
import ClassAtlas.Proofs.Descriptor.Agreement
import ClassAtlas.Proofs.Cache.Ageing
import ClassAtlas.Proofs.Cache.Balance
import ClassAtlas.Proofs.Cache.Freshness
import ClassAtlas.Proofs.Cache.SingleFlight
import ClassAtlas.Proofs.NameResolution.Precedence
import ClassAtlas.Proofs.Cache.FailedLoad
import ClassAtlas.Proofs.Indexing.ResolvedModule
import ClassAtlas.Proofs.Transcript.Recovery
import ClassAtlas.Proofs.Repository.Exactness
import ClassAtlas.Proofs.Session.Fallback
import ClassAtlas.Proofs.Descriptor.History
import ClassAtlas.Proofs.Descriptor.Identity
import ClassAtlas.Proofs.Descriptor.Management
import ClassAtlas.Proofs.Session.Names
import ClassAtlas.Proofs.ClassIndex.Search
import ClassAtlas.Proofs.NameResolution.Guess
import ClassAtlas.Proofs.Settings.Precedence
import ClassAtlas.Proofs.SourceHeader.Recovery
import ClassAtlas.Proofs.Descriptor.Locality
import ClassAtlas.Proofs.SourceHeader.Comments
import ClassAtlas.Proofs.Repository.Missing
import ClassAtlas.Proofs.ClassName.Archive
import ClassAtlas.Proofs.ClassName.Entry
import ClassAtlas.Proofs.Descriptor.Sections
import ClassAtlas.Proofs.NameResolution.Statements
import ClassAtlas.Proofs.Repository.Layout
import ClassAtlas.Proofs.Descriptor.Modules
import ClassAtlas.Proofs.Descriptor.Respelling
import ClassAtlas.Proofs.SourceHeader.Arrangement
import ClassAtlas.Proofs.Transcript.Packing
import ClassAtlas.Proofs.Resolver.Streams
import ClassAtlas.Proofs.Report.Alignment
