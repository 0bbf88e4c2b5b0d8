import Supervisord.GoMap
import Supervisord.GoStd
import Supervisord.Expression
import Supervisord.Regexp
import Supervisord.Ini
import Supervisord.ProcessGroup
import Supervisord.Config.Entry
import Supervisord.Config.Env
import Supervisord.Config.Store
import Supervisord.Config.Parse
import Supervisord.Config.Load
import Supervisord.Config.Pattern
import Supervisord.Config.Groups
import Supervisord.Config.Instances
import Supervisord.Config.Idempotence
import Supervisord.Config.Keys
import Supervisord.Supervisor
import Supervisord.Daemon
import Supervisord.FanOut
import Supervisord.Client
