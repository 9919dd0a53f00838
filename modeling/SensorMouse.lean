import SensorMouse.Lib.Run
import SensorMouse.Lib.DelayQueue
import SensorMouse.Lib.Attachment
import SensorMouse.Lib.Each
import SensorMouse.Lib.Stroke
import SensorMouse.Java
import SensorMouse.Android
import SensorMouse.Button.EventQueueHandler
import SensorMouse.Proof.EventOrder
import SensorMouse.Proof.LostWakeup
import SensorMouse.Button.ButtonEventListener
import SensorMouse.Proof.ListenerView
import SensorMouse.Proof.PointerStream
import SensorMouse.Proof.IsolatedPress
import SensorMouse.Proof.GestureCommands
import SensorMouse.Proof.ReleaseCrossing
import SensorMouse.Proof.StaleMessages
import SensorMouse.Lib.Blocks
import SensorMouse.Mouse.AverageComputerForService
import SensorMouse.Mouse.MouseManager
import SensorMouse.Proof.CursorBox
import SensorMouse.Proof.CursorLock
import SensorMouse.Proof.BlockSum
import SensorMouse.Lib.Transducer
import SensorMouse.Proof.BlockLaw
import SensorMouse.Mouse.AverageComputer
import SensorMouse.Proof.Preview
import SensorMouse.Proof.Trajectory
import SensorMouse.Lib.Ring
import SensorMouse.Mouse.TimeBackCompute
import SensorMouse.Proof.LookBack
import SensorMouse.Proof.ClickPoint
import SensorMouse.Button.ButtonManager
import SensorMouse.Proof.TidyStream
import SensorMouse.Proof.Shutdown
import SensorMouse.Activity.ControllerService
import SensorMouse.Activity.ServiceProcess
import SensorMouse.Proof.ServiceStep
import SensorMouse.Proof.DetachedUpdate
import SensorMouse.Proof.ServiceRing
import SensorMouse.Proof.OnDisplay
import SensorMouse.Proof.StillPress
import SensorMouse.Proof.Instances
import SensorMouse.Proof.Launches
import SensorMouse.Proof.Orientation
import SensorMouse.Lib.Scan
import SensorMouse.Proof.ModeScan
import SensorMouse.Proof.MirrorGesture
import SensorMouse.Proof.TapPoint
import SensorMouse.Proof.EdgeSaturation
import SensorMouse.Proof.BlockDistance
import SensorMouse.Proof.ReversedDirection
import SensorMouse.Mouse.SampledMouse
import SensorMouse.Proof.SafeSettings
import SensorMouse.Proof.ClickLog
import SensorMouse.Button.DataLogHelper
import SensorMouse.Proof.LogSafety
import SensorMouse.Proof.LogContents
import SensorMouse.Proof.LookBackBounds
import SensorMouse.Proof.SharedArray
import SensorMouse.Proof.KeyReach
import SensorMouse.Frameworks.SharedBuffer
import SensorMouse.Frameworks.VectorImpl
import SensorMouse.Setting.StoredPrefs
import SensorMouse.Activity.SensorApp
import SensorMouse.Lib.Counted
import SensorMouse.Proof.BufferOwner
import SensorMouse.Proof.ItemSlots
import SensorMouse.Proof.VectorGrowth
import SensorMouse.Proof.VectorValues
import SensorMouse.Proof.VectorAppend
import SensorMouse.Proof.StoredTexts
import SensorMouse.Proof.ReadableSettings
import SensorMouse.Proof.ServiceSettings
import SensorMouse.Proof.AppCrashes
import SensorMouse.Proof.LockedOut
import SensorMouse.Frameworks.FrameParse
import SensorMouse.Proof.StartCodes
import SensorMouse.Proof.FrameCuts
import SensorMouse.Proof.FrameStream
import SensorMouse.Proof.FrameRoom
import SensorMouse.Proof.FrameDelivery
import SensorMouse.Proof.FrameUnits
import SensorMouse.Proof.NalLengths
