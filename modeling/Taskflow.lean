import Taskflow.Types
import Taskflow.Strconv
import Taskflow.Json
import Taskflow.Marshal
import Taskflow.Render
import Taskflow.Compact
import Taskflow.Jsonb
import Taskflow.Queue
import Taskflow.Storage
import Taskflow.Worker
import Taskflow.Api
import Taskflow.System
import Taskflow.Writes
import Taskflow.Ownership
import Taskflow.Lifecycle
import Taskflow.JobValues
import Taskflow.Stats
import Taskflow.Outcomes
import Taskflow.Pass
import Taskflow.WorkerRow
import Taskflow.Backoff
import Taskflow.Substring
import Taskflow.Pagination
import Taskflow.Validate
import Taskflow.Config
import Taskflow.Identity
import Taskflow.Processors
import Taskflow.ResultJson
import Taskflow.Results
import Taskflow.Admission
