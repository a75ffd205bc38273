import ComponentBindings.Generate
import ComponentBindings.Graph.Load
import ComponentBindings.Command.Run
import ComponentBindings.Main
import ComponentBindings.Proofs.Mapper
import ComponentBindings.Proofs.Declared
import ComponentBindings.Proofs.Places
import ComponentBindings.Proofs.Names
import ComponentBindings.Proofs.Contents
import ComponentBindings.Proofs.Run
import ComponentBindings.Proofs.Returned
import ComponentBindings.Proofs.Apart
import ComponentBindings.Proofs.Integrity
import ComponentBindings.Proofs.WorldTypes
import ComponentBindings.Proofs.Paths
import ComponentBindings.Proofs.Files
import ComponentBindings.Proofs.Closed
import ComponentBindings.Proofs.Json
import ComponentBindings.Proofs.Faults
import ComponentBindings.Proofs.Vouched
import ComponentBindings.Proofs.Outcome
import ComponentBindings.Proofs.Scopes
import ComponentBindings.Proofs.Builtins
import ComponentBindings.Proofs.Functions
import ComponentBindings.Proofs.Words
import ComponentBindings.Proofs.Calls
import ComponentBindings.Proofs.Containers
import ComponentBindings.Proofs.Refusals
import ComponentBindings.Proofs.Reordered
import ComponentBindings.Proofs.Replayed
import ComponentBindings.Proofs.Mirrored
import ComponentBindings.Proofs.Orderless
import ComponentBindings.Proofs.Written
import ComponentBindings.Proofs.Below
import ComponentBindings.Proofs.Licences
import ComponentBindings.Proofs.Referred
import ComponentBindings.Proofs.Permitted
import ComponentBindings.Proofs.Regions
import ComponentBindings.Proofs.Steps
import ComponentBindings.Proofs.Worklist
import ComponentBindings.Proofs.Supported
import ComponentBindings.Proofs.Legible
import ComponentBindings.Proofs.Collisions
import ComponentBindings.Proofs.Inline
import ComponentBindings.Proofs.Search
import ComponentBindings.Proofs.Holders
import ComponentBindings.Proofs.Conventions
import ComponentBindings.Proofs.Emitter
import ComponentBindings.Proofs.Captured
import ComponentBindings.Proofs.Segments
import ComponentBindings.Proofs.Stripped
import ComponentBindings.Proofs.Identities
import ComponentBindings.Proofs.Comments
import ComponentBindings.Proofs.BasePackages
import ComponentBindings.Proofs.Identified
import ComponentBindings.Proofs.Called
import ComponentBindings.Proofs.Blocks
import ComponentBindings.Proofs.Markers
import ComponentBindings.Proofs.ReadAlike
import ComponentBindings.Proofs.Composites
import ComponentBindings.Proofs.DryRun
