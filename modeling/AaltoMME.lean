import AaltoMME.EMM.Buffers
import AaltoMME.EMM.Detach
import AaltoMME.EMM.Freshness
import AaltoMME.EMM.Handlers
import AaltoMME.EMM.MobileIdentity
import AaltoMME.EMM.NextHop
import AaltoMME.EMM.Timers
import AaltoMME.ESM.Bearers
import AaltoMME.ESM.PDNAddress
import AaltoMME.NAS.Streaming
import AaltoMME.NAS.Deciphering
import AaltoMME.S1.Paging
import AaltoMME.S1.Registry
import AaltoMME.S1.Absent
import AaltoMME.S1.Selection
import AaltoMME.S11.Peers
import AaltoMME.S11.Records
import AaltoMME.S11.Restart
import AaltoMME.S11.Supervision
import AaltoMME.MME.Unauthenticated
import AaltoMME.MME.KeNB
import AaltoMME.MME.Consistency
import AaltoMME.MME.LocalIDs
import AaltoMME.MME.Ownership
import AaltoMME.Common.TimerSchedule
import AaltoMME.Common.TBCD
import AaltoMME.S1AP.Fields
import AaltoMME.S1AP.Strings
import AaltoMME.S1AP.Elements
import AaltoMME.S1AP.Presence
import AaltoMME.S1AP.ContextSetup
import AaltoMME.GTP.Bounds
import AaltoMME.NAS.Bounds
import AaltoMME.NAS.AttachOptionals
import AaltoMME.S6a.Milenage
import AaltoMME.Common.NodeMgr
import AaltoMME.MME.Soundness
