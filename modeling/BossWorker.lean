import BossWorker.Base.Dict
import BossWorker.Base.Machine
import BossWorker.Base.Refinement
import BossWorker.Base.Positions
import BossWorker.Base.ThreadPool
import BossWorker.Base.Ranking
import BossWorker.Base.Rounding
import BossWorker.Base.Rotation
import BossWorker.Base.Packing
import BossWorker.Base.Grid
import BossWorker.Base.Matching
import BossWorker.Base.Lock
import BossWorker.Base.Arrivals
import BossWorker.Base.Labels
import BossWorker.Base.Broker
import BossWorker.Base.Redelivery
import BossWorker.Proto.Messages
import BossWorker.Proto.Assignment
import BossWorker.Proto.Example1
import BossWorker.Rust.Coordinator
import BossWorker.Rust.Processor
import BossWorker.Rust.Executor
import BossWorker.Rust.System
import BossWorker.Rust.Process
import BossWorker.Rust.Solver
import BossWorker.Rust.AssignmentHandler
import BossWorker.Rust.AssignmentService
import BossWorker.Rust.Worker
import BossWorker.Python.Coordinator
import BossWorker.Python.Timers
import BossWorker.Python.Locking
import BossWorker.Python.Executor
import BossWorker.Python.Processor
import BossWorker.Python.BatchRunner
import BossWorker.Python.Process
import BossWorker.Python.FilterWorker
import BossWorker.Python.Producer
import BossWorker.Python.Consumer
import BossWorker.Python.Solver
import BossWorker.Python.AssignmentHandler
import BossWorker.Python.AssignmentService
import BossWorker.Python.Publisher
import BossWorker.Python.PublisherLoop
import BossWorker.System.Assignment
import BossWorker.System.Chores
import BossWorker.Spec.Gathering
import BossWorker.Spec.Rotation
import BossWorker.Spec.Matching
import BossWorker.Spec.Sources
import BossWorker.Verif.Coordinator
import BossWorker.Verif.PythonCoordinator
import BossWorker.Verif.Selection
import BossWorker.Verif.Expiry
import BossWorker.Verif.Accounting
import BossWorker.Verif.History
import BossWorker.Verif.Gathering
import BossWorker.Verif.Twins
import BossWorker.Verif.Rotation
import BossWorker.Verif.Fairness
import BossWorker.Verif.Timers
import BossWorker.Verif.TimerFailure
import BossWorker.Verif.Locking
import BossWorker.Verif.SubmissionFailure
import BossWorker.Verif.Modes
import BossWorker.Verif.Filter
import BossWorker.Verif.Greedy
import BossWorker.Verif.BatchRunners
import BossWorker.Verif.RustSolver
import BossWorker.Verif.PythonSolver
import BossWorker.Verif.Feasibility
import BossWorker.Verif.Handlers
import BossWorker.Verif.Results
import BossWorker.Verif.Minimum
import BossWorker.Verif.Publisher
import BossWorker.Verif.Worker
import BossWorker.Verif.Draining
import BossWorker.Verif.Duplicates
import BossWorker.Verif.WorkersDraining
import BossWorker.Verif.Process
import BossWorker.Verif.Summaries
import BossWorker.Verif.Progress
import BossWorker.Verif.Availability
import BossWorker.Verif.Sources
import BossWorker.Verif.PythonProcess
import BossWorker.Verif.PythonSummaries
import BossWorker.Verif.PythonLimits
import BossWorker.Verif.PythonProgress
import BossWorker.Verif.PythonSources
import BossWorker.Verif.TrueSummaries
import BossWorker.Verif.Producer
import BossWorker.Verif.ChoreDemo
import BossWorker.Verif.FilterWorker
import BossWorker.Verif.FilterWorkerProgress
import BossWorker.Verif.AssignmentSystem
import BossWorker.Verif.AssignmentServices
import BossWorker.Verif.Answers
import BossWorker.Verif.AssignmentResults
import BossWorker.Verif.AssignmentDemo
