import Resampling.Axis.Build
import Resampling.Axis.Map
import Resampling.Depot
import Resampling.Error
import Resampling.Event
import Resampling.Filter
import Resampling.FixedPoint
import Resampling.Kernel.Basic
import Resampling.Kernel.Byte
import Resampling.Kernel.Select
import Resampling.Kernel.Single
import Resampling.Kernel.Uq15
import Resampling.Pixel.Codec
import Resampling.Pixel.Format
import Resampling.Pixel.Rect
import Resampling.Pixel.Typed
import Resampling.Pool
import Resampling.Resampler.Basic
import Resampling.Resampler.Construct
import Resampling.Resize
import Resampling.Source.Basic
import Resampling.Source.Blank
import Resampling.Source.Memory
import Resampling.Source.Probe
import Resampling.Source.Request
import Resampling.Source.View
import Resampling.Span
import Resampling.Stack
import Resampling.Window
import Resampling.Word
import Resampling.Proofs.Outcome
import Resampling.Proofs.Axis
import Resampling.Proofs.Span
import Resampling.Proofs.Window.Contents
import Resampling.Proofs.Window.Load
import Resampling.Proofs.Codec
import Resampling.Proofs.Window.Output
import Resampling.Proofs.Request
import Resampling.Proofs.Window.Rows
import Resampling.Proofs.Construct
import Resampling.Proofs.Run
import Resampling.Proofs.Stage
import Resampling.Proofs.Picture
import Resampling.Proofs.Stored
import Resampling.Proofs.Reference
import Resampling.Proofs.Kernel.Checked
import Resampling.Proofs.Kernel.Range
import Resampling.Proofs.Reliable
import Resampling.Proofs.Alike
import Resampling.Proofs.Watched
import Resampling.Proofs.Window.Order
import Resampling.Proofs.Streaming
import Resampling.Proofs.Safety
import Resampling.Proofs.Kernel.Taps
import Resampling.Proofs.Kernel.Straight
import Resampling.Proofs.Kernel.Channels
import Resampling.Proofs.Kernel.Rounding
import Resampling.Proofs.Pixels
import Resampling.Proofs.Agreement
import Resampling.Proofs.Accuracy
import Resampling.Proofs.Recovery
import Resampling.Proofs.Hidden
import Resampling.Proofs.Planar
import Resampling.Proofs.Kernel.Balanced
import Resampling.Proofs.Kernel.Settled
import Resampling.Proofs.Averaging
import Resampling.Proofs.Unchanged
import Resampling.Proofs.Flat
import Resampling.Proofs.Selection
import Resampling.Proofs.Weights
import Resampling.Proofs.Journal
import Resampling.Proofs.Failure
import Resampling.Proofs.Containment
import Resampling.Proofs.Loans
import Resampling.Proofs.Design
import Resampling.Proofs.Holdings
import Resampling.Proofs.Session
import Resampling.Proofs.Unseen
import Resampling.Proofs.Accounts
import Resampling.Proofs.Admission
import Resampling.Proofs.Stock
import Resampling.Proofs.Trace
import Resampling.Proofs.Layout
import Resampling.Proofs.Twins
import Resampling.Proofs.Kernel.Sharpen
import Resampling.Proofs.Refill
import Resampling.Proofs.RoundTrip
import Resampling.Proofs.Idle
import Resampling.Proofs.Orders
