import FastSearch.Server.Connect
import FastSearch.Server.Binding
import FastSearch.Server.SessionClock
import FastSearch.Server.SessionNode
import FastSearch.Server.ProfileWrites
import FastSearch.Server.ProfileFrame
import FastSearch.Server.LastTime
import FastSearch.Server.NodeEquality
import FastSearch.Server.TimeText
import FastSearch.Main.ShownState
import FastSearch.Main.Attempts
import FastSearch.Service.Commands
import FastSearch.Service.AfterStop
import FastSearch.Service.ProcessPool
import FastSearch.Service.TrafficMonitor
import FastSearch.Browser.PageEvents
import FastSearch.Browser.DelayedLoad
import FastSearch.Browser.Incognito
import FastSearch.Browser.TabInvariant
import FastSearch.Browser.Display
import FastSearch.Browser.Screens
import FastSearch.Browser.RecentlyOpened
import FastSearch.Browser.HistorySwipes
import FastSearch.Browser.SearchLists
import FastSearch.Browser.SearchUrl
import FastSearch.Ad.Registrations
import FastSearch.Ad.DailyCap
import FastSearch.Ad.NativeAds
import FastSearch.Ad.WaterfallOrder
import FastSearch.Ad.DayCounters
import FastSearch.Ad.BackgroundTask
import FastSearch.Tba.InstallLog
import FastSearch.Tba.SessionLog
import FastSearch.Tba.PublicIp
import FastSearch.Remote.Readers
import FastSearch.Remote.SmartNodes
import FastSearch.Database.KeyValuePair
import FastSearch.Service.UnderlyingNetwork
import FastSearch.Plugin.PluginConfiguration
import FastSearch.Net.Routes
import FastSearch.Net.AccessControl
import FastSearch.Subscription.SubscriptionUpdate
import FastSearch.Service.StateReports
import FastSearch.Service.BandwidthListeners
import FastSearch.Service.ProxyInstance
import FastSearch.Database.ProfileImport
