import SectorVolume.Host
import SectorVolume.Main
import SectorVolume.Proofs.Ends
import SectorVolume.Proofs.Cache.Transparency
import SectorVolume.Proofs.Cache.Flushing
import SectorVolume.Proofs.Allocation.Bitmap
import SectorVolume.Proofs.Allocation.Marking
import SectorVolume.Proofs.Allocation.Counting
import SectorVolume.Proofs.Allocation.Releasing
import SectorVolume.Proofs.Allocation.LowestFirst
import SectorVolume.Proofs.Allocation.Bounds
import SectorVolume.Proofs.Allocation.Space
import SectorVolume.Proofs.Mapping.Entries
import SectorVolume.Proofs.Mapping.Maps
import SectorVolume.Proofs.Mapping.Tiers
import SectorVolume.Proofs.Mapping.Blocks
import SectorVolume.Proofs.Mapping.Tree
import SectorVolume.Proofs.Mapping.Growing
import SectorVolume.Proofs.Mapping.Ensuring
import SectorVolume.Proofs.Mapping.Filling
import SectorVolume.Proofs.Mapping.Creating
import SectorVolume.Proofs.Volume.Contents
import SectorVolume.Proofs.Volume.Pieces
import SectorVolume.Proofs.Volume.Nodes
import SectorVolume.Proofs.Volume.Ownership
import SectorVolume.Proofs.Volume.Files
import SectorVolume.Proofs.Volume.Editing
import SectorVolume.Proofs.Volume.Writing
import SectorVolume.Proofs.Volume.Opening
import SectorVolume.Proofs.Volume.Closing
import SectorVolume.Proofs.Volume.Setup
import SectorVolume.Proofs.Volume.Requests
import SectorVolume.Proofs.Volume.Steps
import SectorVolume.Proofs.Volume.Runs
import SectorVolume.Proofs.Volume.Refinement
import SectorVolume.Proofs.Volume.Accounting
import SectorVolume.Proofs.Volume.Creation
import SectorVolume.Proofs.Mapping.Views
import SectorVolume.Proofs.Mapping.Agreement
import SectorVolume.Proofs.Mapping.Smooth
import SectorVolume.Proofs.Volume.Remount
import SectorVolume.Proofs.Volume.Frames
import SectorVolume.Proofs.Volume.Removal
import SectorVolume.Proofs.Volume.Recognition
import SectorVolume.Proofs.Volume.Denials
import SectorVolume.Proofs.Volume.Turns
import SectorVolume.Proofs.Volume.Gate
import SectorVolume.Proofs.Volume.Interruption
import SectorVolume.Proofs.Volume.Shortage
import SectorVolume.Proofs.Volume.Losses
import SectorVolume.Proofs.Cache.Representation
import SectorVolume.Proofs.Cache.Policy
import SectorVolume.Proofs.Cache.Traffic
import SectorVolume.Proofs.Cache.Rounds
import SectorVolume.Proofs.Cache.Progress
import SectorVolume.Proofs.Cache.Draining
import SectorVolume.Proofs.Cache.Rotation
import SectorVolume.Proofs.Volume.Registry
import SectorVolume.Proofs.Volume.Dissolution
import SectorVolume.Proofs.Tool.Inspection
import SectorVolume.Proofs.Tool.RoundTrip
import SectorVolume.Proofs.Cache.Confinement
import SectorVolume.Proofs.Volume.Admission
import SectorVolume.Proofs.Volume.Formatting
import SectorVolume.Proofs.Volume.Damage
import SectorVolume.Proofs.Volume.Logging
import SectorVolume.Proofs.Cache.Preference
import SectorVolume.Proofs.Cache.Overlapping
