import Diskette.Catalog.Operation
import Diskette.SaveStore.Folder
import Diskette.Zip.Reader
import Diskette.Proofs.Catalog.Change
import Diskette.Proofs.Catalog.Mapping
import Diskette.Proofs.Catalog.Content
import Diskette.Proofs.Disk.Decoding
import Diskette.Proofs.Snapshot.Record
import Diskette.Proofs.Catalog.RoundTrip
import Diskette.Proofs.Msa.Packing
import Diskette.Proofs.Msa.Tracks
import Diskette.Proofs.Disk.WriteBack
import Diskette.Proofs.SwapTimer.History
import Diskette.Proofs.Geometry.Presented
import Diskette.Proofs.Drive.Addressing
import Diskette.Proofs.Catalog.InStep
import Diskette.Proofs.Catalog.Persistence
import Diskette.Proofs.Msa.Images
import Diskette.Proofs.Catalog.Insertion
import Diskette.Proofs.Disk.Formatting
import Diskette.Proofs.Catalog.Origins
import Diskette.Proofs.SaveStore.Map
import Diskette.Proofs.Catalog.Reloading
import Diskette.Proofs.Msa.Grammar
import Diskette.Proofs.Msa.Shortest
import Diskette.Proofs.Disk.SameFile
import Diskette.Proofs.Catalog.Writing
import Diskette.Proofs.Snapshot.Extent
import Diskette.Proofs.Catalog.Restoring
import Diskette.Proofs.Catalog.Marking
import Diskette.Proofs.Disk.Recognition
import Diskette.Proofs.Catalog.Independence
import Diskette.Proofs.Catalog.Delay
import Diskette.Proofs.Catalog.Reinserting
import Diskette.Proofs.Catalog.Playlist
import Diskette.Proofs.Drive.TrackRest
import Diskette.Proofs.SwapTimer.Settling
import Diskette.Proofs.Zip.Growth
import Diskette.Proofs.Zip.Reader
import Diskette.Proofs.Zip.Listing
import Diskette.Proofs.Disk.WellFormed
import Diskette.Proofs.Catalog.Loading
import Diskette.Proofs.Disk.BootSectorPolicy
import Diskette.Proofs.FileName.Steps
import Diskette.Proofs.SaveStore.Confined
