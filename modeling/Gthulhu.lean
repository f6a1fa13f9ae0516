import Gthulhu.Daemon.SerialFacts
import Gthulhu.Manager.RefreshFacts
import Gthulhu.Manager.RootFacts
import Gthulhu.Manager.LogoutAllFacts
import Gthulhu.Manager.RotationFacts
import Gthulhu.Manager.StatusFacts
import Gthulhu.Manager.NodeDeletionFacts
import Gthulhu.Monitor.LifetimeFacts
import Gthulhu.Monitor.MigrationFacts
import Gthulhu.Monitor.WaitTimeFacts
import Gthulhu.Scheduler.KernelMode
import Gthulhu.DecisionMaker.ResolvedIntents
import Gthulhu.Manager.ResourceRepositoryFacts
import Gthulhu.Monitor.WatchLoopFacts
import Gthulhu.Daemon.AcceptFacts
import Gthulhu.Manager.DesiredConfigFacts
import Gthulhu.Manager.InsertFacts
import Gthulhu.Manager.RestFacts
import Gthulhu.Manager.RoleFacts
import Gthulhu.Manager.SetPasswordFacts
import Gthulhu.Manager.StampFacts
import Gthulhu.Manager.NodeQueriesFacts
import Gthulhu.DecisionMaker.PodProcessFacts
import Gthulhu.Monitor.ControlFacts
import Gthulhu.Monitor.CounterFacts
import Gthulhu.Scheduler.DispatchLoop
import Gthulhu.DecisionMaker.TraverseFacts
import Gthulhu.Manager.PodQueries
import Gthulhu.Manager.ClassifierPods
