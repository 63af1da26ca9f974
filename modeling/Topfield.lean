import Topfield.Validation
import Topfield.TransferSize
import Topfield.Download
import Topfield.Listing
import Topfield.Upload
import Topfield.Failure
import Topfield.Resync
import Topfield.Session
import Topfield.Closing
import Topfield.LastError
import Topfield.Bounds
import Topfield.Dirents
import Topfield.Filenames
import Topfield.Overflow
import Topfield.Leak
import Topfield.Canonical
import Topfield.Corruption
import Topfield.Descriptor
import Topfield.Decoding
import Topfield.Cancelling
import Topfield.StatFailure
import Topfield.Sorting
import Topfield.UsbIo
import Topfield.Swapping
import Topfield.Locking
import Topfield.DaemonAnswer
import Topfield.UsbDevices
import Topfield.Handles
import Topfield.FileStore
import Topfield.Traffic
import Topfield.Calendar
import Topfield.Gadget
import Topfield.Fwio.Replies
import Topfield.Fwio.Delivery
