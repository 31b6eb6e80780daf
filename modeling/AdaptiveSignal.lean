import AdaptiveSignal.Pedestrian.StageOrder
import AdaptiveSignal.Pedestrian.CycleBudget
import AdaptiveSignal.CommandBuffer.GreenBounds
import AdaptiveSignal.CommandBuffer.Arbitration
import AdaptiveSignal.CommandBuffer.StaleCommands
import AdaptiveSignal.CommandBuffer.SendOnce
import AdaptiveSignal.CommandBuffer.CompensationDetection
import AdaptiveSignal.CommandBuffer.Resume
import AdaptiveSignal.CommandBuffer.Countdown
import AdaptiveSignal.Signal.CycleCount
import AdaptiveSignal.Signal.PlanCoherence
import AdaptiveSignal.CommandBuffer.AdjustedTime
import AdaptiveSignal.CommandBuffer.SnapshotRace
import AdaptiveSignal.CommandBuffer.LockDiscipline
import AdaptiveSignal.Activation.ServedVehicles
import AdaptiveSignal.Compensation.Conservation
import AdaptiveSignal.Compensation.TableBounds
import AdaptiveSignal.Serial.Resync
import AdaptiveSignal.Serial.Bounds
import AdaptiveSignal.Network.MessageQueue
import AdaptiveSignal.Network.WriteEvents
import AdaptiveSignal.Network.Datagrams
import AdaptiveSignal.Network.Reassembly
import AdaptiveSignal.Network.SendStream
import AdaptiveSignal.Network.ClientDict
import AdaptiveSignal.Serial.Acknowledge
import AdaptiveSignal.Serial.OwnFrame
import AdaptiveSignal.Broadcast.Schedule
import AdaptiveSignal.Broadcast.Delivery
import AdaptiveSignal.CommandBuffer.CountdownRequests
import AdaptiveSignal.Pedestrian.SocketReceiver
import AdaptiveSignal.Network.TimeEvents
import AdaptiveSignal.Registration.Dispatch
import AdaptiveSignal.Vehicles.Lists
import AdaptiveSignal.Configuration.Reload
import AdaptiveSignal.Compensation.CycleSplit
import AdaptiveSignal.Compensation.PhaseRanking
import AdaptiveSignal.Compensation.Alignment
import AdaptiveSignal.Compensation.Segments
import AdaptiveSignal.Compensation.Saturation
import AdaptiveSignal.Compensation.ComingPhases
import AdaptiveSignal.CommandBuffer.ExtendSequence
import AdaptiveSignal.CommandBuffer.SharedTarget
import AdaptiveSignal.Activation.Adjustment
import AdaptiveSignal.ExternalApps.Requests
import AdaptiveSignal.Emergency.CheckInside
import AdaptiveSignal.Emergency.Optimization
import AdaptiveSignal.Network.InboundBounds
import AdaptiveSignal.Pedestrian.PacketCounts
import AdaptiveSignal.Spat.RegularPlans
import AdaptiveSignal.Compensation.PhaseLength
import AdaptiveSignal.Activation.TouchCount
import AdaptiveSignal.Activation.RefusedCommands
import AdaptiveSignal.Activation.HostMemory
import AdaptiveSignal.Activation.CoolingList
import AdaptiveSignal.Activation.SupermatrixLookup
import AdaptiveSignal.WarningAgent.Levels
import AdaptiveSignal.WarningAgent.LeadingVehicles
import AdaptiveSignal.Spm.AnswersOnce
import AdaptiveSignal.Configuration.StrategyCommands
import AdaptiveSignal.Configuration.CarouselUpdate
import AdaptiveSignal.Configuration.TrimSpace
import AdaptiveSignal.Network.WriteRing
import AdaptiveSignal.Network.ByteWriting
import AdaptiveSignal.Vehicles.RecordRings
import AdaptiveSignal.Vehicles.RecordTime
import AdaptiveSignal.Cms.DatabaseUpdates
import AdaptiveSignal.ExternalApps.Monitoring
import AdaptiveSignal.Pedestrian.Synchronisation
import AdaptiveSignal.Pedestrian.DisplayClients
import AdaptiveSignal.Pedestrian.CameraSilence
import AdaptiveSignal.Cms.SignRounds
import AdaptiveSignal.Vms.Lines
import AdaptiveSignal.Vms.Monitoring
import AdaptiveSignal.Network.LiveClients
import AdaptiveSignal.Spat.SharedGroups
import AdaptiveSignal.Spat.PhaseOrderTable
import AdaptiveSignal.Activation.SupermatrixFiles
import AdaptiveSignal.Signal.ErrorStatus
import AdaptiveSignal.Logging.FileRotation
import AdaptiveSignal.ExternalApps.CollidingCallbacks
