import WireCatalog.Assoc
import WireCatalog.BuiltIn.Release114
import WireCatalog.BuiltIn.Row
import WireCatalog.Catalogue.Basic
import WireCatalog.Catalogue.Event
import WireCatalog.Catalogue.Plan
import WireCatalog.Catalogue.Register
import WireCatalog.Catalogue.Registry
import WireCatalog.Directory.Basic
import WireCatalog.Error
import WireCatalog.Index.Basic
import WireCatalog.Packet.ClassTable
import WireCatalog.Packet.Declaration
import WireCatalog.Packet.PacketType
import WireCatalog.Proofs.Additions
import WireCatalog.Proofs.Adoption
import WireCatalog.Proofs.AliasSearch
import WireCatalog.Proofs.AppendOnly
import WireCatalog.Proofs.Claims
import WireCatalog.Proofs.ClassPairs
import WireCatalog.Proofs.ClassResolution
import WireCatalog.Proofs.ClassTable
import WireCatalog.Proofs.Coherence
import WireCatalog.Proofs.Confinement
import WireCatalog.Proofs.Convergence
import WireCatalog.Proofs.Decision
import WireCatalog.Proofs.Directory
import WireCatalog.Proofs.Discovery
import WireCatalog.Proofs.Enrolment
import WireCatalog.Proofs.Exclusive
import WireCatalog.Proofs.Growth
import WireCatalog.Proofs.KnownClasses
import WireCatalog.Proofs.LegacyDiscovery
import WireCatalog.Proofs.LegacyOrder
import WireCatalog.Proofs.Lists
import WireCatalog.Proofs.Lookups
import WireCatalog.Proofs.Merged
import WireCatalog.Proofs.NameStability
import WireCatalog.Proofs.Naming
import WireCatalog.Proofs.OwnName
import WireCatalog.Proofs.PacketName
import WireCatalog.Proofs.Publication
import WireCatalog.Proofs.Reachable
import WireCatalog.Proofs.Readdition
import WireCatalog.Proofs.Representation
import WireCatalog.Proofs.Requests
import WireCatalog.Proofs.Serials
import WireCatalog.Proofs.SettingsText
import WireCatalog.Proofs.Shadowing
import WireCatalog.Proofs.Shutdown
import WireCatalog.Proofs.StaleMiss
import WireCatalog.Proofs.TableOrder
import WireCatalog.Proofs.TomlStrings
import WireCatalog.Proofs.Transparency
import WireCatalog.Proofs.VersionGrammar
import WireCatalog.Proofs.VersionText
import WireCatalog.Protocol.Channel
import WireCatalog.Protocol.Encoded
import WireCatalog.Protocol.Version
import WireCatalog.Settings.Basic
import WireCatalog.Settings.Reader
import WireCatalog.Text.Character
import WireCatalog.Text.Quoted
import WireCatalog.Toml.Document
import WireCatalog.Toml.Lexis
import WireCatalog.Toml.Quoted
import WireCatalog.Toml.Scalar
import WireCatalog.Toml.Table
import WireCatalog.Worker.Executor
import WireCatalog.Worker.Job
import WireCatalog.Worker.Session
import WireCatalog.Worker.Thread
import WireCatalog.Worker.Ticket
