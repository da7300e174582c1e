import LedMatrix.Lib.Runs
import LedMatrix.Lib.OneSlot
import LedMatrix.Config
import LedMatrix.Lib.CText
import LedMatrix.Lib.MachineInt
import LedMatrix.Lib.OneSlotDelivery
import LedMatrix.Lib.Reassembly
import LedMatrix.ThreadLed
import LedMatrix.Json
import LedMatrix.ParseLedPost
import LedMatrix.McpServer
import LedMatrix.McpCommands
import LedMatrix.LedHandler
import LedMatrix.Transactions
import LedMatrix.Isolation
import LedMatrix.System
import LedMatrix.BufferBounds
import LedMatrix.Delivery
import LedMatrix.FailedParse
import LedMatrix.WhiteLimit
import LedMatrix.FrontEnds
import LedMatrix.WebUi
import LedMatrix.WebUiSafety
import LedMatrix.WebUiSync
import LedMatrix.PixelHistory
import LedMatrix.PostDecoding
import LedMatrix.PostOutcome
import LedMatrix.McpProtocol
import LedMatrix.ActionNames
import LedMatrix.Boot
import LedMatrix.UiBody
import LedMatrix.Lib.Scanf
import LedMatrix.RgbString
import LedMatrix.Lib.JsonText
import LedMatrix.FallbackSearch
import LedMatrix.AllPixels
import LedMatrix.EchoService
import LedMatrix.EchoTraffic
import LedMatrix.IndexOnly
import LedMatrix.Lib.Resources
import LedMatrix.EchoSockets
import LedMatrix.Firmware
import LedMatrix.Lib.OneSlotProgress
import LedMatrix.Settling
import LedMatrix.Lib.OneSlotHistory
import LedMatrix.ThreadHistory
import LedMatrix.EndToEnd
import LedMatrix.ColorCommand
import LedMatrix.Debounce
import LedMatrix.EchoHistory
import LedMatrix.Lib.Throwing
import LedMatrix.PageView
import LedMatrix.PageSync
import LedMatrix.McpAnswers
import LedMatrix.StripUpdates
import LedMatrix.Lib.CSource
import LedMatrix.WebAssets
