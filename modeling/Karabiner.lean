import Karabiner.Library.Machine
import Karabiner.Library.SignedTokens
import Karabiner.Types
import Karabiner.ModifierFlagManager
import Karabiner.ModifierFlagCounters
import Karabiner.EventQueue.Event
import Karabiner.Manipulator.Environment
import Karabiner.MomentarySwitchEvent
import Karabiner.PointingButtonManager
import Karabiner.EventQueue.Queue
import Karabiner.EventQueue.Utility
import Karabiner.Grabber.Entry
import Karabiner.Grabber.DeviceGrabber
import Karabiner.Manipulator.ConditionHistory
import Karabiner.Manipulator.PostEventToVirtualDevices.Queue
import Karabiner.Manipulator.PostEventToVirtualDevices.KeyEventDispatcher
import Karabiner.Manipulator.PostEventToVirtualDevices
import Karabiner.Manipulator.Types
import Karabiner.Manipulator.Basic.FromEventDefinition
import Karabiner.Manipulator.Basic.FromEventDefinitionJson
import Karabiner.Manipulator.Basic.EventSender
import Karabiner.Manipulator.Basic.Ledger
import Karabiner.Manipulator.Basic
import Karabiner.Manipulator.ManipulatorManager
import Karabiner.Manipulator.Basic.Presses
import Karabiner.Manipulator.ManipulatorManager.Presses
import Karabiner.Manipulator.ManipulatorManager.Ownership
import Karabiner.Manipulator.ManipulatorManager.Pairing
import Karabiner.Manipulator.ManipulatorManager.Reload
import Karabiner.Manipulator.Basic.Machine
import Karabiner.Manipulator.Basic.Balance
import Karabiner.Manipulator.ManipulatorManager.Batching
import Karabiner.Library.LexDescent
import Karabiner.EventQueue.SortEvents
import Karabiner.Manipulator.ManipulatorManagersConnector
import Karabiner.Manipulator.ManipulatorManagersConnector.Potential
import Karabiner.Manipulator.ManipulatorManagersConnector.Draining
import Karabiner.Manipulator.Basic.Detection
import Karabiner.Manipulator.Basic.HeldDown
import Karabiner.Manipulator.PostEventToVirtualDevices.FinalStage
import Karabiner.Manipulator.DeviceUngrabbed
import Karabiner.Library.History
import Karabiner.Grabber.ProbableStuckEventsManager
import Karabiner.Grabber.SessionMonitorReceiver
import Karabiner.EventQueue.Event.Json
import Karabiner.Library.Json
import Karabiner.JsonUtility
import Karabiner.MomentarySwitchEvent.Json
import Karabiner.EventQueue.Event.PayloadJson
import Karabiner.EventQueue.Event.SoftwareFunctionJson
import Karabiner.EventQueue.Event.SetVariableJson
import Karabiner.VectorUtility
import Karabiner.VectorUtility.MoveElement
import Karabiner.CoreConfiguration.ConfigurationJsonHelper
import Karabiner.CoreConfiguration.DeviceIdentifiers
import Karabiner.CoreConfiguration.SimpleModifications
import Karabiner.CoreConfiguration.Device
import Karabiner.CoreConfiguration.ComplexModifications
import Karabiner.CoreConfiguration.GlobalConfiguration
import Karabiner.CoreConfiguration.Profile
import Karabiner.CoreConfiguration.CoreConfiguration
import Karabiner.CoreConfiguration.Selection
import Karabiner.CoreConfiguration.SaveAndLoad
import Karabiner.Library.AdjacentSwaps
import Karabiner.Manipulator.PostEventToVirtualDevices.Spacing
import Karabiner.Manipulator.PostEventToVirtualDevices.PointingButtons
import Karabiner.EventQueue.Utility.Conservation
import Karabiner.EventQueue.Utility.TimeOrder
import Karabiner.Manipulator.Basic.ScopedModifierFlags
import Karabiner.Manipulator.Basic.Sends
import Karabiner.Manipulator.Basic.DelayedAction
import Karabiner.Manipulator.Basic.Postings
import Karabiner.Manipulator.NeedsVirtualHidPointing
import Karabiner.Manipulator.ManipulatorManager.TimeOrder
import Karabiner.Manipulator.MouseMotionToScroll.Options
import Karabiner.Manipulator.MouseMotionToScroll.Counter
import Karabiner.Manipulator.MouseMotionToScroll.Stopping
import Karabiner.Manipulator.MouseMotionToScroll.Direction
import Karabiner.Library.OrderedMap
import Karabiner.NotificationMessageManager
import Karabiner.Manipulator.Types.FromModifiersDefinition
import Karabiner.CoreConfiguration.SimpleModifications.Mapping
import Karabiner.CoreConfiguration.SimpleModifications.Edits
import Karabiner.CoreConfiguration.Device.Reload
import Karabiner.CoreConfiguration.Strings
import Karabiner.Devices.DeviceProperties
import Karabiner.Library.StdSort
import Karabiner.Devices.ConnectedDevices
import Karabiner.Library.LastResult
import Karabiner.Manipulator.CachedConditions
import Karabiner.Library.CarriedRemainder
import Karabiner.Library.Binary64
import Karabiner.Manipulator.PostEventToVirtualDevices.CountConverter
import Karabiner.Manipulator.PostEventToVirtualDevices.MouseKeyMotion
import Karabiner.Dispatcher.Timer
import Karabiner.Grabber.GamePadStickConverter.EventValue
import Karabiner.Grabber.GamePadStickConverter
import Karabiner.Grabber.GamePadStickConverter.ContinuedMovement
import Karabiner.Library.Toggles
import Karabiner.CoreConfiguration.Profile.GetDevice
import Karabiner.Manipulator.Conditions
import Karabiner.Manipulator.Types.Definitions
import Karabiner.Manipulator.MouseBasic
import Karabiner.Manipulator.ManipulatorManager.Kinds
import Karabiner.Grabber.ManipulatorJson
import Karabiner.Grabber.SimpleModificationsManipulatorManager
import Karabiner.Manipulator.ManipulatorManager.Motions
import Karabiner.Grabber.SimpleModificationsManipulatorManager.Motions
import Karabiner.Grabber.FnFunctionKeysManipulatorManager
import Karabiner.Devices.HidQueueValueMonitor
import Karabiner.Grabber.Grabbing
import Karabiner.HatSwitchConverter
import Karabiner.Library.Worker
import Karabiner.Grabber.Receiver
import Karabiner.Library.TimedQueue
import Karabiner.Dispatcher.Dispatcher
import Karabiner.Dispatcher.Returning
import Karabiner.Monitor.ConfigurationMonitor
