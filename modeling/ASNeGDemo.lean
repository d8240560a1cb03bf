import ASNeGDemo.Alarm.Overlap
import ASNeGDemo.Alarm.Reload
import ASNeGDemo.Events.Messages
import ASNeGDemo.HistoricalAccess.EventFields
import ASNeGDemo.HistoricalAccess.Timestamps
import ASNeGDemo.HistoricalAccess.Release
import ASNeGDemo.TestFolderLib.ArrayTicks
import ASNeGDemo.TestFolderLib.Lifetime
import ASNeGDemo.TestFolderLib.Overlap
import ASNeGDemo.TestFolderLib.PassOverlap
import ASNeGDemo.TestStatusCode.Agreement
import ASNeGDemo.TestStatusCode.Sharing
import ASNeGDemo.TestStatusCode.Switching
import ASNeGDemo.RandomWalk.Conversion
import ASNeGDemo.RandomWalk.Reals
import ASNeGDemo.Lifecycle.LoopTime
import ASNeGDemo.Lifecycle.Restart
import ASNeGDemo.Authentication.AuthNodeSet
import ASNeGDemo.Authentication.Reload
import ASNeGDemo.Function.Method
import ASNeGDemo.Library.DemoLibrary
import ASNeGDemo.NodeSet.DeclaredTypes
