import CounterDroneServer.SensorDataParser.Balance
import CounterDroneServer.SensorDataParser.Recovery
import CounterDroneServer.SensorDataParser.Bounds
import CounterDroneServer.SensorDataParser.Packets
import CounterDroneServer.SensorDataParser.Termination
import CounterDroneServer.DroneDataSensor.Delivery
import CounterDroneServer.DroneDataSensor.Connections
import CounterDroneServer.TelemetryDataProcessor.Activity
import CounterDroneServer.ThreadsSharedDataManager.ExactlyOnce
import CounterDroneServer.AcceptedWork
import CounterDroneServer.Shutdown
import CounterDroneServer.LockFree.SPSCBatch
import CounterDroneServer.LockFree.MPMCCalls
import CounterDroneServer.DroneDataSimulator.Ranges
import CounterDroneServer.Checksum.Detection
import CounterDroneServer.DroneDataSimulator.Corruption
import CounterDroneServer.DroneDataSimulator.Traffic
import CounterDroneServer.Pipeline
import CounterDroneServer.Library.Binary64
import CounterDroneServer.TelemetryDataProcessor.Messages
import CounterDroneServer.ShutdownProgress
import CounterDroneServer.SensorDataParser.Cost
import CounterDroneServer.LockFree.MPMCProgress
import CounterDroneServer.LockFree.MPMCHistory
import CounterDroneServer.Library.Ledger
import CounterDroneServer.Lifetime
import CounterDroneServer.PipelineProgress
import CounterDroneServer.DroneDataSimulator.Termination
import CounterDroneServer.LockFree.SPSCProgress
import CounterDroneServer.SensorDataParser.Counters
import CounterDroneServer.Library.ReleaseAcquire
import CounterDroneServer.LockFree.SPSCOrders
import CounterDroneServer.LockFree.SPSCRaces
