import SwitchPaxos.Base.Handler
import SwitchPaxos.Base.Keeps
import SwitchPaxos.Base.Translation
import SwitchPaxos.Base.Run
import SwitchPaxos.Base.Reach
import SwitchPaxos.Base.Simulation
import SwitchPaxos.Base.Terminated
import SwitchPaxos.Base.Sorted
import SwitchPaxos.Base.Dict
import SwitchPaxos.Base.BigEndian
import SwitchPaxos.Base.Hexadecimal
import SwitchPaxos.Base.Channel
import SwitchPaxos.Base.Load
import SwitchPaxos.Base.RootedTree
import SwitchPaxos.Base.Python
import SwitchPaxos.Base.Ballots
import SwitchPaxos.Base.Acquaintance
import SwitchPaxos.Base.Tally
import SwitchPaxos.Wire.Ethernet
import SwitchPaxos.Wire.MacText
import SwitchPaxos.Wire.Message
import SwitchPaxos.Wire.RoundTrip
import SwitchPaxos.Switch.Baseline
import SwitchPaxos.Switch.FlowTable
import SwitchPaxos.Switch.Learning
import SwitchPaxos.Switch.Placing
import SwitchPaxos.Switch.Fabric
import SwitchPaxos.Switch.Topology
import SwitchPaxos.Switch.Conservation
import SwitchPaxos.Switch.Spreading
import SwitchPaxos.Switch.Settling
import SwitchPaxos.Switch.Addresses
import SwitchPaxos.Controller.Slots
import SwitchPaxos.Controller.Store
import SwitchPaxos.Controller.Node
import SwitchPaxos.Controller.NodeSpec
import SwitchPaxos.Controller.NodeRun
import SwitchPaxos.Controller.Queue
import SwitchPaxos.Controller.Acceptor
import SwitchPaxos.Controller.Learner
import SwitchPaxos.Controller.Clashing
import SwitchPaxos.Controller.Client
import SwitchPaxos.Controller.Backing
import SwitchPaxos.Controller.Cluster
import SwitchPaxos.Controller.Accountable
import SwitchPaxos.Controller.Handing
import SwitchPaxos.Controller.Informed
import SwitchPaxos.Controller.Lossless
import SwitchPaxos.Controller.Publishing
import SwitchPaxos.Controller.Hearing
import SwitchPaxos.Controller.Answering
import SwitchPaxos.Controller.AnyQueue
import SwitchPaxos.Controller.Diligence
import SwitchPaxos.Controller.Majority
import SwitchPaxos.Controller.InStep
import SwitchPaxos.Controller.Order
import SwitchPaxos.Controller.Numbering
import SwitchPaxos.Controller.Draining
import SwitchPaxos.Controller.Start
import SwitchPaxos.Controller.Flows
import SwitchPaxos.Controller.Delivery
import SwitchPaxos.Controller.Serving
import SwitchPaxos.Controller.Forgetting
import SwitchPaxos.Controller.Service
import SwitchPaxos.Controller.Rewriting
import SwitchPaxos.Controller.Hosts
import SwitchPaxos.Controller.Wan
import SwitchPaxos.Controller.FromWan
import SwitchPaxos.Controller.Collecting
import SwitchPaxos.Controller.Joining
import SwitchPaxos.Controller.Membership
import SwitchPaxos.Controller.FirstRound
import SwitchPaxos.Controller.Rounds
import SwitchPaxos.Controller.Exchange
import SwitchPaxos.Controller.Joined
import SwitchPaxos.Tools.RttUdp
import SwitchPaxos.Tools.VerifyOrdering
import SwitchPaxos.Tools.HostReports
import SwitchPaxos.KeyValue.Message
import SwitchPaxos.KeyValue.StackPickle
import SwitchPaxos.KeyValue.Server
import SwitchPaxos.KeyValue.Absorbing
import SwitchPaxos.KeyValue.Client
import SwitchPaxos.KeyValue.Calls
import SwitchPaxos.Insane.Node
import SwitchPaxos.Insane.Acceptor
import SwitchPaxos.Insane.Network
import SwitchPaxos.Insane.Members
import SwitchPaxos.Insane.PickNext
import SwitchPaxos.Insane.Rounds
import SwitchPaxos.Insane.Proposals
import SwitchPaxos.Insane.Votes
import SwitchPaxos.Insane.Promises
import SwitchPaxos.Insane.Agreement
import SwitchPaxos.Insane.Learning
import SwitchPaxos.Insane.Quorums
import SwitchPaxos.Insane.Repeats
import SwitchPaxos.Insane.Validity
import SwitchPaxos.Insane.Progress
import SwitchPaxos.Insane.OneLeader
import SwitchPaxos.Insane.Transport
import SwitchPaxos.Insane.Processes
import SwitchPaxos.Insane.Starting
